import Ebnf.Proofs.Ways

/-!
# Types of what is read

Every value in the node of an entity was given by a leaf that fills its property, so it has the type
that is declared for the property. A virtual entity gives the value of its only field in place of a
node of its own.

* `Value.Inside`: the values that a value is made up of;
* `Model.FieldTyped`: the value of a field has the type of its property;
* `Value.Sound`: the same for all instances that a value is made up of;
* `Program.Made.sound_entity`: what is read for an entity is sound;
* `read_typed`: so is the result for a text.
-/

namespace Ebnf

/-! ## 1. Values within values -/

/-- A value is another one, or is made up of values of which one is it. -/
inductive Value.Inside (u : Value) : Value → Prop where
  | self : Inside u u
  | item {v : Value} {items : List Value} (hmem : v ∈ items) (h : Inside u v) :
    Inside u (.list items)
  | field {key : Name} {v : Value} {entity : Name} {fields : List (Name × Value)}
    (hmem : (key, v) ∈ fields) (h : Inside u v) : Inside u (.node entity fields)

/-- The value of a field, or each value in the list that it holds if its property repeats. -/
def Value.Each (plural : Bool) (Q : Value → Prop) (w : Value) : Prop :=
  if plural then ∃ items, w = .list items ∧ ∀ v ∈ items, Q v else Q w

theorem Value.Each.mono {plural : Bool} {Q Q' : Value → Prop} {w : Value} (h : w.Each plural Q)
    (himp : ∀ v, Q v → Q' v) : w.Each plural Q' := by
  cases plural with
  | true =>
    obtain ⟨items, rfl, hitems⟩ := h
    exact ⟨items, rfl, fun v hv => himp v (hitems v hv)⟩
  | false => exact himp w h

/-- The field of an instance belongs to a property of its entity, and holds values of the type of
    the property. If the property makes a choice between branches that have no type in common, its
    type is the entity itself, and the values come from those to which the branches lead. -/
def Model.FieldTyped (m : Model) (x key : Name) (w : Value) : Prop :=
  ∃ e id type plural, m.entity? x = some e ∧ e.property? key = some id ∧
    m.propertyType id = .ok (some type) ∧ m.isPlural id = .ok plural ∧
    w.Each plural fun v =>
      v.Conforms m type ∨ type = .entity x ∧ m.Chooses x id ∧ v.Passed m x

/-- The fields of all instances that a value is made up of have the types of their properties. -/
def Value.Sound (m : Model) (v : Value) : Prop :=
  ∀ x fields, Inside (.node x fields) v → ∀ key w, (key, w) ∈ fields → m.FieldTyped x key w

namespace Value.Sound

variable {m : Model}

theorem text (s : String) : Sound m (.text s) := by
  intro x fields h
  cases h

theorem flag (b : Bool) : Sound m (.flag b) := by
  intro x fields h
  cases h

theorem list {items : List Value} (h : ∀ v ∈ items, v.Sound m) : Sound m (.list items) := by
  intro x fields hinside
  cases hinside with
  | item hmem hin => exact h _ hmem x fields hin

theorem each {plural : Bool} {w : Value} (h : w.Each plural (Sound m)) : Sound m w := by
  cases plural with
  | true =>
    obtain ⟨items, rfl, hitems⟩ := h
    exact list hitems
  | false => exact h

theorem node {x : Name} {fields : List (Name × Value)}
    (htyped : ∀ key w, (key, w) ∈ fields → m.FieldTyped x key w)
    (hparts : ∀ key w, (key, w) ∈ fields → w.Sound m) : Sound m (.node x fields) := by
  intro y fields' hinside
  cases hinside with
  | self => exact htyped
  | field hmem hin => exact hparts _ _ hmem y fields' hin

end Value.Sound

/-! ## 2. The fields of a node -/

/-- What is under a name after a value was put there. -/
theorem Ordered.mem_set {α : Type} {vs : Ordered α} {key key' : Name} {v v' : α}
    (h : (key', v') ∈ Ordered.set vs key v) : (key', v') ∈ vs ∨ key' = key ∧ v' = v := by
  induction vs with
  | nil =>
    rw [Ordered.set, List.mem_singleton, Prod.mk.injEq] at h
    exact .inr h
  | cons entry rest ih =>
    obtain ⟨k, old⟩ := entry
    rw [Ordered.set] at h
    split at h
    · rcases List.mem_cons.1 h with heq | hmem
      · exact .inr (Prod.mk.inj heq)
      · exact .inl (List.mem_cons_of_mem _ hmem)
    · rcases List.mem_cons.1 h with heq | hmem
      · exact .inl (List.mem_cons.2 (.inl heq))
      · rcases ih hmem with hold | hnew
        · exact .inl (List.mem_cons_of_mem _ hold)
        · exact .inr hnew

/-- Every field of a node was there before, or was filled in. -/
theorem mem_fillFields {out : Assignments} {key : Name} {w : Value} (fields : List Field) :
    ∀ (place : Nat) (n : Node), (key, w) ∈ (fillFields out place n fields).fields →
      (key, w) ∈ n.fields ∨ ∃ (k : Nat) (f : Field), fields[k]? = some f ∧ f.name = key ∧
        f.value? (place + k) out = some w := by
  induction fields with
  | nil => exact fun _ _ h => .inl h
  | cons first fields ih =>
    intro place n h
    rw [fillFields] at h
    rcases ih _ _ h with hthere | ⟨k, f, hk, hname, hvalue⟩
    · cases hfirst : first.value? place out with
      | none =>
        rw [hfirst] at hthere
        exact .inl hthere
      | some v =>
        rw [hfirst] at hthere
        rcases Ordered.mem_set hthere with hold | ⟨rfl, rfl⟩
        · exact .inl hold
        · exact .inr ⟨0, first, rfl, rfl, hfirst⟩
    · refine .inr ⟨k + 1, f, hk, hname, ?_⟩
      rw [← hvalue, Nat.add_assoc, Nat.add_comm 1 k]

/-- Filling in fields changes nothing else of a node. -/
theorem entity_fillFields {out : Assignments} (fields : List Field) :
    ∀ (place : Nat) (n : Node), (fillFields out place n fields).entity = n.entity := by
  induction fields with
  | nil => exact fun _ _ => rfl
  | cons f fields ih =>
    intro place n
    rw [fillFields, ih]
    cases f.value? place out <;> rfl

/-- The values of a field: those that were recorded for it, or for a witness that nothing was. -/
theorem Field.of_value? {f : Field} {place : Nat} {out : Assignments} {w : Value}
    (h : f.value? place out = some w) :
    (f.isPlural = true ∧ w = .list (valuesAt place out)) ∨
    (f.isPlural = false ∧ (w ∈ valuesAt place out ∨ f.isWitness = true ∧ w = .flag false)) := by
  rw [Field.value?] at h
  cases hplural : f.isPlural with
  | true =>
    simp only [hplural, if_true, Option.some.injEq] at h
    exact .inl ⟨rfl, h.symm⟩
  | false =>
    refine .inr ⟨rfl, ?_⟩
    simp only [hplural, Bool.false_eq_true, if_false] at h
    split at h
    · next v hv =>
      obtain rfl := Option.some.inj h
      exact .inl (List.mem_of_getLast? hv)
    · split at h
      · next hwitness => exact .inr ⟨hwitness, (Option.some.inj h).symm⟩
      · contradiction

variable {m : Model} {e : Entity} {s : Site} {P : Name → Value → Prop}

/-- A value of a field was given by a leaf that fills it. -/
theorem Recorded.gives {out : Assignments}
    (h : Recorded P s.dest s.property s.plan.symbols out) {place : Nat} {v : Value}
    (hv : v ∈ valuesAt place out) : ∃ symbol, s.Feeds place symbol ∧ symbol.Gives P v := by
  obtain ⟨⟨destination, v⟩, hentry, rfl⟩ := List.mem_map.1 hv
  obtain ⟨hmem, hdest⟩ := List.mem_filter.1 hentry
  obtain ⟨k, symbol, hk, hto, hgives⟩ := h _ hmem
  exact ⟨symbol, ⟨k, hk, hto.symm.trans (of_decide_eq_true hdest)⟩, hgives⟩

/-- The tree of an action starts with it. -/
theorem Model.action_of_tree {id : ActionId} {t : ActionTree} (h : m.tree id = .ok t) :
    m.action id = .ok t.action := by
  rw [Model.tree] at h
  cases hx : m.action id with
  | error fault => rw [hx] at h; contradiction
  | ok x =>
    simp only [hx, bind, Except.bind] at h
    split at h
    · contradiction
    · split at h
      · contradiction
      · obtain rfl := Except.ok.inj h
        rfl

/-- A flag for nothing is what a leaf of the field may give. -/
theorem Site.Source.witness {place : Nat} {id : PropertyId} {p : Property} {t : ActionTree}
    (h : s.Source e place id p t) (hwitness : t.action.isWitness = true) :
    ∃ symbol, s.Feeds place symbol ∧ symbol.Gives P (.flag false) := by
  cases h with
  | leaf kind witness feeds only =>
    rename_i x symbol
    rw [ActionTree.action, witness] at hwitness
    refine ⟨symbol, feeds, ?_⟩
    cases symbol with
    | literal text isWitness =>
      obtain rfl : isWitness = true := hwitness
      exact ⟨false, rfl⟩
    | pattern source => contradiction
    | reference target => contradiction
  | choice kind witness proxy owner alone branches =>
    rw [ActionTree.action, witness] at hwitness
    contradiction

variable {g : Grammar} {engine : Engine} {config : ReadConfig} {p : Program} {patterns : Patterns}

/-- The values of a field were given by leaves that fill the property it was made from. -/
theorem Procedure.Of.filled [Unicode.Xid] {proc : Procedure} {r : Rule} {fields : List Field}
    (h : proc.Of g m patterns e s r fields) {out : Assignments}
    (hout : Recorded P s.dest s.property s.plan.symbols out) {place : Nat} {f : Field} {w : Value}
    (hf : fields[place]? = some f) (hw : f.value? place out = some w) :
    ∃ id plural, e.properties[place]? = some (f.name, id) ∧ m.isPlural id = .ok plural ∧
      w.Each plural fun v => ∃ symbol, s.Feeds place symbol ∧ symbol.Gives P v := by
  have hlength : e.properties.ids.length = fields.length := h.fields.length_eq
  rw [PropertyMap.ids, List.length_map] at hlength
  have hlt : place < e.properties.length := hlength ▸ (List.getElem?_eq_some_iff.1 hf).1
  have hplace : e.properties[place]? = some (e.properties[place].1, e.properties[place].2) :=
    List.getElem?_eq_getElem hlt
  obtain ⟨f', hf', hname, hfield⟩ := h.field hplace
  obtain rfl := Option.some.inj (hf.symm.trans hf')
  obtain ⟨p, x, hp, hx, _, hplural, hwitness⟩ := Field.of_ofModel hfield
  refine ⟨_, f.isPlural, hname ▸ hplace, hplural, ?_⟩
  rcases Field.of_value? hw with ⟨hlist, rfl⟩ | ⟨hsingle, hvalue⟩
  · rw [hlist]
    exact ⟨valuesAt place out, rfl, fun v hv => hout.gives hv⟩
  · rw [hsingle]
    rcases hvalue with hv | ⟨hflag, rfl⟩
    · exact hout.gives hv
    · obtain ⟨p', t, hp', ht, hsource⟩ := h.hosts.exists_source hplace
      obtain rfl := Except.ok.inj (hp.symm.trans hp')
      obtain rfl := Except.ok.inj (hx.symm.trans (Model.action_of_tree ht))
      exact hsource.witness (hwitness ▸ hflag)

/-! ## 3. What is read for an entity -/

/-- What may be read for an entity to which the root leads is sound. -/
def Model.Reads (m : Model) (site : Name → Site) (target : Name) (v : Value) : Prop :=
  Flows m site target v ∧ (m.Reachable target → v.Sound m)

theorem Symbol.Gives.mono {P Q : Name → Value → Prop} {symbol : Symbol} {v : Value}
    (h : symbol.Gives P v) (himp : ∀ target v, P target v → Q target v) : symbol.Gives Q v := by
  cases symbol with
  | literal text witness => cases witness <;> exact h
  | pattern source => exact h
  | reference target => exact himp target v h

/-- What a leaf gives of its own is sound. -/
theorem Symbol.Gives.sound {symbol : Symbol} {v : Value}
    (h : symbol.Gives (fun _ _ => False) v) : v.Sound m := by
  cases symbol with
  | literal text witness =>
    cases witness with
    | true =>
      obtain ⟨b, rfl⟩ := h
      exact .flag b
    | false =>
      obtain ⟨s, rfl⟩ := h
      exact .text s
  | pattern source =>
    obtain ⟨s, rfl⟩ := h
    exact .text s
  | reference target => exact h.elim

/-- What a leaf gives is sound where it fills a property of an entity to which the root leads. -/
theorem Site.Hosts.sound_of_gives {site : Name → Site} (h : s.Hosts m e)
    (he : m.entity? e.name = some e) (hreach : m.Reachable e.name) {place : Nat} {key : Name}
    {id : PropertyId} (hplace : e.properties[place]? = some (key, id)) {symbol : Symbol} {v : Value}
    (hfeeds : s.Feeds place symbol) (hgives : symbol.Gives (m.Reads site) v) : v.Sound m := by
  rcases hgives.own_or_reference with hown | ⟨target, rfl, _, hsound⟩
  · exact hown.sound
  · refine hsound (hreach.leads ⟨e, id, he, ?_, (h.refers_iff hplace).2 hfeeds⟩)
    exact List.mem_map.2 ⟨_, List.mem_of_getElem? hplace, rfl⟩

/-- The node of an entity to which the root leads is sound if the values are that were recorded for
    it. -/
theorem Procedure.Of.sound [Unicode.Xid] {proc : Procedure} {r : Rule} {fields : List Field}
    {site : Name → Site} (h : proc.Of g m patterns e (site e.name) r fields)
    (hreached : Build.Reached g m True) (hsurveyed : Build.Surveyed m)
    (hsited : m.Sited site m.names) (he : m.entity? e.name = some e) (hreach : m.Reachable e.name)
    {out : Assignments}
    (hout : Recorded (m.Reads site) (site e.name).dest (site e.name).property
      (site e.name).plan.symbols out) : (assemble e.name fields out).toValue.Sound m := by
  have hentity : (assemble e.name fields out).entity = e.name := entity_fillFields fields 0 _
  rw [Node.toValue, hentity]
  have hfilled : ∀ key w, (key, w) ∈ (assemble e.name fields out).fields →
      ∃ place id plural, e.properties[place]? = some (key, id) ∧ m.isPlural id = .ok plural ∧
        w.Each plural fun v =>
          ∃ symbol, (site e.name).Feeds place symbol ∧ symbol.Gives (m.Reads site) v := by
    intro key w hfield
    rcases mem_fillFields fields 0 _ hfield with hnone | ⟨place, f, hf, rfl, hvalue⟩
    · exact absurd hnone List.not_mem_nil
    · exact ⟨place, h.filled hout hf (Nat.zero_add place ▸ hvalue)⟩
  refine .node (fun key w hfield => ?_) fun key w hfield => ?_
  · obtain ⟨place, id, plural, hplace, hplural, heach⟩ := hfilled key w hfield
    obtain ⟨type, htype, hfits⟩ :=
      Flows.fits_of_gives hsited hreached.typable he hreach h.hosts hplace
    have hkey : e.property? key = some id :=
      Ordered.get?_of_mem h.hosts.nodup_keys (List.mem_of_getElem? hplace)
    refine ⟨e, id, type, plural, he, hkey, htype, hplural, heach.mono ?_⟩
    rintro v ⟨symbol, hfeeds, hgives⟩
    have hflows := hgives.mono fun _ _ hreads => hreads.1
    rcases hfits symbol v hfeeds hflows with hfit | ⟨hself, hchooses, y, hof, hway⟩
    · exact .inl (hfit.conforms hreached hsurveyed)
    · exact .inr ⟨hself, hchooses, y, hof, hway,
        hway.isA_or_gap hreached hsurveyed hreach (.inr ⟨id, hchooses⟩)⟩
  · obtain ⟨place, id, plural, hplace, _, heach⟩ := hfilled key w hfield
    refine .each (heach.mono ?_)
    rintro v ⟨symbol, hfeeds, hgives⟩
    exact h.hosts.sound_of_gives he hreach hplace hfeeds hgives

/-- A virtual entity gives what fills its property. -/
theorem Procedure.Of.reads [Unicode.Xid] {proc : Procedure} {r : Rule} {fields : List Field}
    {site : Name → Site} (h : proc.Of g m patterns e (site e.name) r fields)
    (he : m.entity? e.name = some e) (hvirtual : m.isVirtual e.name = .ok true) {out : Assignments}
    (hout : Recorded (m.Reads site) (site e.name).dest (site e.name).property
      (site e.name).plan.symbols out)
    {v : Value} (hv : (assemble e.name fields out).firstValue? = some v) :
    m.Reads site e.name v := by
  obtain ⟨e', key, id, he', hproperties, hplural, _⟩ := Model.of_isVirtual hvirtual
  obtain rfl := Option.some.inj (he.symm.trans he')
  obtain ⟨entry, hentry, rfl⟩ := Option.map_eq_some_iff.1 hv
  have hfield : (entry.1, entry.2) ∈ (assemble e.name fields out).fields :=
    List.mem_of_mem_head? hentry
  rcases mem_fillFields fields 0 _ hfield with hnone | ⟨place, f, hf, _, hvalue⟩
  · exact absurd hnone List.not_mem_nil
  · obtain ⟨id', plural, hplace, hplural', heach⟩ := h.filled hout hf (Nat.zero_add place ▸ hvalue)
    rw [hproperties, List.getElem?_singleton] at hplace
    split at hplace
    · next hzero =>
      subst hzero
      obtain ⟨rfl, rfl⟩ := Prod.mk.inj (Option.some.inj hplace)
      obtain rfl := Except.ok.inj (hplural.symm.trans hplural')
      obtain ⟨symbol, hfeeds, hgives⟩ := heach
      have hplace : e.properties[0]? = some (f.name, id) := by rw [hproperties]; rfl
      refine ⟨?_, fun hreach => h.hosts.sound_of_gives he hreach hplace hfeeds hgives⟩
      rcases hgives.own_or_reference with hown | ⟨target, rfl, hflows, _⟩
      · exact .own hvirtual hfeeds hown
      · exact .pass hvirtual hfeeds hflows
    · contradiction

/-- Where what is read for each entity is sound, so is what is recorded for references to it. -/
theorem Program.Made.given_inner [Unicode.Xid] (hmade : p.Made engine m config patterns)
    (hreached : Build.Reached g m True) {site : Name → Site} {src : Source} {depth : Nat}
    (h : ∀ name s n t, p.entity src depth name s = .ok (some n) t → n.entity = name ∧
      (m.Reachable name → n.toValue.Sound m) ∧
      (m.isVirtual name = .ok true → ∀ v, n.firstValue? = some v → m.Reads site name v)) :
    Plan.Given (p.inner src depth) (m.Reads site) := by
  intro target s found t hfound v hv
  obtain ⟨n, u, hn, hnext⟩ := found_of_bind hfound fun _ => rfl
  obtain ⟨rfl, hsound, hfirst⟩ := h target s n u hn
  obtain ⟨b, hb⟩ := hreached.isVirtual_ok n.entity
  obtain ⟨value, _, hvalue, hlast⟩ := bind_eq_ok.1 hnext
  rw [hmade.nodeValue_eq hb] at hvalue
  cases hvalue
  cases hlast
  cases b with
  | true => exact hfirst hb v hv
  | false =>
    obtain rfl := Option.some.inj hv
    exact ⟨.node n.fields hb, hsound⟩

/-- What is read for an entity is sound: its node if the root leads to it, and what it stands for if
    it is virtual. -/
theorem Program.Made.sound_entity [Unicode.Xid] (hmade : p.Made engine m config patterns)
    (hreached : Build.Reached g m True) (hsurveyed : Build.Surveyed m) {site : Name → Site}
    (hsited : m.Sited site m.names) (src : Source) (depth : Nat) :
    ∀ name s n t, p.entity src depth name s = .ok (some n) t → n.entity = name ∧
      (m.Reachable name → n.toValue.Sound m) ∧
      (m.isVirtual name = .ok true → ∀ v, n.firstValue? = some v → m.Reads site name v) := by
  -- what an entity refers to is read at a smaller depth
  induction depth with
  | zero => exact fun name s n t h => by cases h
  | succ depth ih =>
    intro name s n t h
    rw [p.entity_eq_collect] at h
    obtain ⟨out, u, hcollect, hnext⟩ := found_of_bind h fun _ => rfl
    obtain ⟨below, e, proc, r, fields, start, hbelow, he, hproc, hof, hrun⟩ :=
      hmade.of_collect hreached hsited hcollect
    obtain rfl := Nat.succ.inj hbelow
    obtain rfl := Model.name_of_entity?_eq_some he
    simp only [hproc, hof.fields_eq] at hnext
    cases hnext
    have hgiven := hmade.given_inner hreached ih
    have hout := (Plan.tally_run (D := fun _ => false) hgiven (site e.name).plan
      (site e.name).property (fun _ _ _ hD => by contradiction) start out _ hrun).1
    exact ⟨entity_fillFields fields 0 _,
      fun hreach => hof.sound hreached hsurveyed hsited he hreach hout,
      fun hvirtual v hv => hof.reads he hvirtual hout hv⟩

/-! ## 4. Whole texts -/

/-- A text with what may be passed over in it. -/
def Program.source (p : Program) (text : String) : Source :=
  .ofText text.toList p.ignore

/-- A text that is read has been read as the root. -/
theorem Program.entity_of_read {p : Program} {text : String} {node : Node}
    (h : p.read text = .ok (.ok node)) :
    ∃ t, p.entity (p.source text) (p.maxDepth + 1) p.root {} = .ok (some node) t := by
  have hrun : ∃ s, p.readSource (p.source text) {} = .ok (.ok node) s := by
    rw [Program.read, Program.readTracing, EStateM.run] at h
    split at h
    · next result s hresult =>
      obtain rfl := Except.ok.inj h
      exact ⟨s, hresult⟩
    · contradiction
  obtain ⟨s, hrun⟩ := hrun
  obtain ⟨found, t, hfound, hnext⟩ := bind_eq_ok.1 hrun
  cases found with
  | none =>
    obtain ⟨_, _, _, hlast⟩ := bind_eq_ok.1 hnext
    cases hlast
  | some n =>
    obtain ⟨atEnd, u, _, hlast⟩ := bind_eq_ok.1 hnext
    cases atEnd with
    | true =>
      cases hlast
      exact ⟨t, hfound⟩
    | false =>
      obtain ⟨v, _, _, hlast⟩ := bind_eq_ok.1 hlast
      obtain ⟨_, _, _, hlast⟩ := bind_eq_ok.1 hlast
      split at hlast
      · cases hlast
      · cases hlast

theorem Program.exists_entity_of_read {p : Program} {text : String} {node : Node}
    (h : p.read text = .ok (.ok node)) : ∃ src t,
      p.entity src (p.maxDepth + 1) p.root {} = .ok (some node) t :=
  ⟨_, Program.entity_of_read h⟩

/-- Every value in a result has the type that the model declares: each field of each instance that
    occurs in it belongs to a property, the type of which can be told, and holds values of that
    type. -/
theorem read_typed [Unicode.Xid] {n : Nat} (hmodel : Model.ofGrammar g = .ok m)
    (hprogram : Program.ofModel engine m config = .ok (p, n)) {text : String} {node : Node}
    (hread : p.read text = .ok (.ok node)) {x : Name} {fields : List (Name × Value)}
    (hinside : Value.Inside (.node x fields) node.toValue) {key : Name} {w : Value}
    (hfield : (key, w) ∈ fields) : m.FieldTyped x key w := by
  obtain ⟨hreached, hsurveyed⟩ := Build.reached_ofGrammar hmodel
  obtain ⟨patterns, hmade⟩ := Program.made_of_ofModel hprogram
  obtain ⟨site, hsited⟩ := hreached.bodies trivial
  obtain ⟨src, t, hentity⟩ := Program.exists_entity_of_read hread
  obtain ⟨_, hsound, _⟩ := hmade.sound_entity hreached hsurveyed hsited src _ _ _ _ _ hentity
  exact hsound ⟨p.root, hmade.root, .refl⟩ x fields hinside key w hfield

/-! ## 5. Examples -/

namespace Sample

/-- A word stands for a text. -/
theorem entityType_word : model.entityType [] "word" = .ok .text := by
  have htree : model.wrappedTree? "word" =
      .ok (some (.node ⟨3⟩ model.actions[3] (some model.properties[2]) [])) := by
    cbv
  have htype : model.treeType ["word"]
      (.node ⟨3⟩ model.actions[3] (some model.properties[2]) []) = .ok (some .text) := by
    rw [Model.treeType]
    rfl
  exact Model.entityType_wrapped (by cbv) List.not_mem_nil htree htype

/-- Words and marks have no type in common, so the declared type is the list. -/
theorem propertyType_eq : model.propertyType ⟨3⟩ = .ok (some (.entity "list")) := by
  have htree : model.tree ⟨2⟩ = .ok (.node ⟨2⟩ model.actions[2] (some model.properties[3])
      [.node ⟨0⟩ model.actions[0] (some model.properties[0]) [],
        .node ⟨1⟩ model.actions[1] (some model.properties[1]) []]) := by
    cbv
  have hmark : model.entityType [] "mark" = .ok (.entity "mark") :=
    Model.entityType_plain (by cbv) []
  have htypes := Model.branchTypes_cons
    (Model.addedType_reference (x := model.actions[0]) rfl rfl entityType_word ⟨0⟩
      (some model.properties[0]) [])
    (Model.branchTypes_cons
      (Model.addedType_reference (x := model.actions[1]) rfl rfl hmark ⟨1⟩
        (some model.properties[1]) [])
      (by rw [Model.branchTypes]))
  show model.actionType ⟨2⟩ = _
  rw [Model.actionType, htree]
  exact Model.treeType_choice rfl htypes ⟨2⟩ model.properties[3]

/-- What a word and a mark are read as. -/
def node : Node where
  entity := "list"
  fields := [("alternative", .list [.text "a", .node "mark" []])]

theorem read_eq : program.read "acd" = .ok (.ok node) := by
  decide +kernel

end Sample

/-- A word and a mark are both what may be in a list. -/
theorem read_typed_sample :
    Model.ofGrammar Sample.grammar = .ok Sample.model ∧
    Program.ofModel Sample.engine Sample.model Sample.config = .ok (Sample.program, 0) ∧
    Sample.program.read "acd" = .ok (.ok Sample.node) ∧
    Sample.model.FieldTyped "list" "alternative" (.list [.text "a", .node "mark" []]) :=
  ⟨Sample.ofGrammar_eq, Sample.ofModel_eq, Sample.read_eq,
    read_typed Sample.ofGrammar_eq Sample.ofModel_eq Sample.read_eq .self List.mem_cons_self⟩

namespace Circle

/-- Pairs of a left and a right part, each of which may be what the other is. -/
def grammar : Grammar where
  rules := [
    { name := "pair", body := .sequence (.reference none "left") (.reference none "right") },
    { name := "left", body := .choice (.reference none "mark") (.reference none "right") },
    { name := "right", body := .choice (.reference none "word") (.reference none "left") },
    { name := "word", body := .literal none "a" },
    { name := "mark", body := .sequence (.literal none "c") (.literal none "d") }]

def pair : Entity where
  name := "pair"
  rule := grammar.rule? "pair"
  properties := [("left", ⟨0⟩), ("right", ⟨1⟩)]
  action := some ⟨2⟩

def left : Entity where
  name := "left"
  rule := grammar.rule? "left"
  properties := [("alternative", ⟨7⟩)]
  action := some ⟨5⟩

def right : Entity where
  name := "right"
  rule := grammar.rule? "right"
  properties := [("alternative", ⟨8⟩)]
  action := some ⟨8⟩

def word : Entity where
  name := "word"
  rule := grammar.rule? "word"
  properties := [("word", ⟨6⟩)]
  action := some ⟨9⟩

def mark : Entity where
  name := "mark"
  rule := grammar.rule? "mark"
  action := some ⟨12⟩

/-- The model of the pairs with the given links. -/
def linked (links : List (Name × Name)) : Model :=
  links.foldl (fun m link => (m.addSub link.1 link.2).addSuper link.2 link.1) {
    entities := [pair, left, right, word, mark]
    properties := #[
      { name := "left", entity := "pair", source := ⟨0⟩ },
      { name := "right", entity := "pair", source := ⟨1⟩ },
      { name := "mark", entity := "left", source := ⟨3⟩ },
      { name := "right", entity := "left", source := ⟨4⟩ },
      { name := "word", entity := "right", source := ⟨6⟩ },
      { name := "left", entity := "right", source := ⟨7⟩ },
      { name := "word", entity := "word", source := ⟨9⟩ },
      { name := "alternative", entity := "left", source := ⟨5⟩, kind := .proxy [⟨2⟩, ⟨3⟩] },
      { name := "alternative", entity := "right", source := ⟨8⟩, kind := .proxy [⟨4⟩, ⟨5⟩] }]
    actions := #[
      { kind := .entity "left", property := some ⟨0⟩, parent := some ⟨2⟩ },
      { kind := .entity "right", property := some ⟨1⟩, parent := some ⟨2⟩ },
      { kind := .all [⟨0⟩, ⟨1⟩] },
      { kind := .entity "mark", property := some ⟨2⟩, parent := some ⟨5⟩ },
      { kind := .entity "right", property := some ⟨3⟩, parent := some ⟨5⟩ },
      { kind := .any [⟨3⟩, ⟨4⟩], property := some ⟨7⟩ },
      { kind := .entity "word", property := some ⟨4⟩, parent := some ⟨8⟩ },
      { kind := .entity "left", property := some ⟨5⟩, parent := some ⟨8⟩ },
      { kind := .any [⟨6⟩, ⟨7⟩], property := some ⟨8⟩ },
      { kind := .literal "a", property := some ⟨6⟩ },
      { kind := .literal "c", parent := some ⟨12⟩ },
      { kind := .literal "d", parent := some ⟨12⟩ },
      { kind := .all [⟨10⟩, ⟨11⟩] }]
    root := some "pair" }

/-- The model of the pairs. The right part is a special case of the left one, so that is none of the
    right one. -/
def model : Model :=
  linked [("left", "mark"), ("left", "right"), ("right", "word")]

/-- The program of the pairs. -/
def program : Program where
  root := "pair"
  ignore := none
  maxDepth := 256
  procedures := model.entities.map fun e => (e.name, Procedure.ofModel model [] e)

theorem discover_left (events : Array Event) (attached : List (Name × PropertyId)) :
    Build.discover left { model := linked [], events, attached } = .ok ["mark", "right"]
      { model := linked [("left", "mark"), ("left", "right")],
        events := (events.push (.subFound "left" "mark")).push (.subFound "left" "right"),
        attached } := by
  have hmark : (linked []).register? "left" "mark" = some (linked [("left", "mark")]) :=
    Model.register?_of_isA_eq_false (by decide) (by cbv) (by cbv) (by decide) (by decide)
  have hright : (linked [("left", "mark")]).register? "left" "right" =
      some (linked [("left", "mark"), ("left", "right")]) :=
    Model.register?_of_isA_eq_false (by decide) (by cbv) (by cbv) (by decide) (by decide)
  refine Build.discover_proxy rfl (by cbv) rfl rfl (by cbv) ?_
  exact (forM_cons_of_ok (Build.registerSub_some hmark)).trans
    (forM_cons_of_ok (Build.registerSub_some hright))

theorem discover_right (events : Array Event) (attached : List (Name × PropertyId)) :
    Build.discover { right with supers := ["left"] }
        { model := linked [("left", "mark"), ("left", "right")], events, attached } =
      .ok ["word", "left"]
        { model, events := (events.push (.subFound "right" "word")).push
            (.subSkipped "right" "left"), attached } := by
  have hword : (linked [("left", "mark"), ("left", "right")]).register? "right" "word" =
      some model :=
    Model.register?_of_isA_eq_false (by decide) (by cbv) (by cbv) (by decide) (by decide)
  have hleft : model.register? "right" "left" = none :=
    Model.register?_of_isA (by cbv)
  refine Build.discover_proxy rfl (by cbv) rfl rfl (by cbv) ?_
  exact (forM_cons_of_ok (Build.registerSub_some hword)).trans
    (forM_cons_of_ok (Build.registerSub_none hleft))

/-- The pair leads to both of its parts. The first that is looked at gets all its links. -/
theorem walk_eq (events : Array Event) (attached : List (Name × PropertyId)) :
    Build.walk ["pair", "left", "right", "word", "mark"] [] ["pair"]
      { model := linked [], events, attached } = .ok ()
      { model, events := (((events.push (.subFound "left" "mark")).push
          (.subFound "left" "right")).push (.subFound "right" "word")).push
          (.subSkipped "right" "left"), attached } := by
  have hpair : Build.discover pair { model := linked [], events, attached } =
      .ok ["left", "right"] { model := linked [], events, attached } := by
    cbv
  have hmark : ∀ events, Build.discover { mark with supers := ["left"] }
      { model := linked [("left", "mark"), ("left", "right")], events, attached } =
        .ok [] { model := linked [("left", "mark"), ("left", "right")], events, attached } := by
    intro events
    cbv
  have hword : ∀ events, Build.discover { word with supers := ["right"] }
      { model, events, attached } = .ok [] { model, events, attached } := by
    intro events
    cbv
  rw [Build.walk_cons (by decide) rfl hpair, List.append_nil,
    Build.walk_cons (by decide) rfl (discover_left _ _), List.cons_append,
    Build.walk_cons (by decide) rfl (hmark _), List.nil_append, List.cons_append,
    Build.walk_cons (by decide) rfl (discover_right _ _), List.cons_append,
    Build.walk_cons (by decide) rfl (hword _), List.nil_append, List.cons_append,
    Build.walk_pass (by decide), List.nil_append, List.nil_append,
    Build.walk_pass (by decide), Build.walk]
  rfl

theorem ofGrammar_eq : Model.ofGrammar grammar = .ok model :=
  Build.ofGrammar_of_walk (m := linked []) (by cbv) rfl
    fun events attached => ⟨_, _, walk_eq events attached⟩

theorem ofModel_eq : Program.ofModel Sample.engine model Sample.config = .ok (program, 0) :=
  rfl

/-- The type of the left part, on the way through the right one. -/
theorem entityType_left : model.entityType ["right"] "left" = .ok (.entity "left") := by
  have htree : model.wrappedTree? "left" =
      .ok (some (.node ⟨5⟩ model.actions[5] (some model.properties[7])
        [.node ⟨3⟩ model.actions[3] (some model.properties[2]) [],
          .node ⟨4⟩ model.actions[4] (some model.properties[3]) []])) := by
    cbv
  have hmark : model.entityType ["left", "right"] "mark" = .ok (.entity "mark") :=
    Model.entityType_plain (by cbv) _
  have hright : model.entityType ["left", "right"] "right" = .ok (.entity "right") :=
    Model.entityType_seen (by cbv) (by decide)
  have htypes := Model.branchTypes_cons
    (Model.addedType_reference (x := model.actions[3]) rfl rfl hmark ⟨3⟩
      (some model.properties[2]) [])
    (Model.branchTypes_cons
      (Model.addedType_reference (x := model.actions[4]) rfl rfl hright ⟨4⟩
        (some model.properties[3]) [])
      (by rw [Model.branchTypes]))
  exact Model.entityType_wrapped (by cbv) (by decide) htree
    (Model.treeType_choice rfl htypes ⟨5⟩ model.properties[7])

/-- The branches of the right part have no type in common. -/
theorem propertyType_eq : model.propertyType ⟨1⟩ = .ok (some (.entity "right")) := by
  have htree : model.wrappedTree? "right" =
      .ok (some (.node ⟨8⟩ model.actions[8] (some model.properties[8])
        [.node ⟨6⟩ model.actions[6] (some model.properties[4]) [],
          .node ⟨7⟩ model.actions[7] (some model.properties[5]) []])) := by
    cbv
  have hword : model.entityType ["right"] "word" = .ok .text := by
    have htree : model.wrappedTree? "word" =
        .ok (some (.node ⟨9⟩ model.actions[9] (some model.properties[6]) [])) := by
      cbv
    have htype : model.treeType ["word", "right"]
        (.node ⟨9⟩ model.actions[9] (some model.properties[6]) []) = .ok (some .text) := by
      rw [Model.treeType]
      rfl
    exact Model.entityType_wrapped (by cbv) (by decide) htree htype
  have htypes := Model.branchTypes_cons
    (Model.addedType_reference (x := model.actions[6]) rfl rfl hword ⟨6⟩
      (some model.properties[4]) [])
    (Model.branchTypes_cons
      (Model.addedType_reference (x := model.actions[7]) rfl rfl entityType_left ⟨7⟩
        (some model.properties[5]) [])
      (by rw [Model.branchTypes]))
  have hright : model.entityType [] "right" = .ok (.entity "right") :=
    Model.entityType_wrapped (by cbv) List.not_mem_nil htree
      (Model.treeType_choice rfl htypes ⟨8⟩ model.properties[8])
  have hsource : model.tree ⟨1⟩ =
      .ok (.node ⟨1⟩ model.actions[1] (some model.properties[1]) []) := by
    cbv
  show model.actionType ⟨1⟩ = _
  rw [Model.actionType, hsource]
  exact Model.addedType_reference (x := model.actions[1]) rfl rfl hright ⟨1⟩
    (some model.properties[1]) []

/-- What two marks are read as. -/
def node : Node where
  entity := "pair"
  fields := [("left", .node "mark" []), ("right", .node "mark" [])]

theorem read_eq : program.read "cdcd" = .ok (.ok node) := by
  decide +kernel

end Circle

/-- A value is an instance of an entity or of a special case of it. -/
def Value.Instance (m : Model) (n : Name) (v : Value) : Prop :=
  ∃ x fields, v = .node x fields ∧ (x = n ∨ m.isA x n = true)

/-- Not every value for the type of an entity is an instance of it or of a special case. The
    property of a list repeats, so neither words nor marks are special cases of lists, and a word is
    no instance at all. A mark may be the right part of a pair, by way of the left one, of which it
    is a special case, but that is none of the right one. -/
theorem read_not_instance :
    (Model.ofGrammar Sample.grammar = .ok Sample.model ∧
      Program.ofModel Sample.engine Sample.model Sample.config = .ok (Sample.program, 0) ∧
      Sample.program.read "acd" = .ok (.ok Sample.node) ∧
      Sample.node.get? "alternative" = some (.list [.text "a", .node "mark" []]) ∧
      Sample.model.propertyType ⟨3⟩ = .ok (some (.entity "list")) ∧
      ¬ Value.Instance Sample.model "list" (.text "a") ∧
      ¬ Value.Instance Sample.model "list" (.node "mark" [])) ∧
    (Model.ofGrammar Circle.grammar = .ok Circle.model ∧
      Program.ofModel Sample.engine Circle.model Sample.config = .ok (Circle.program, 0) ∧
      Circle.program.read "cdcd" = .ok (.ok Circle.node) ∧
      Circle.node.get? "right" = some (.node "mark" []) ∧
      Circle.model.propertyType ⟨1⟩ = .ok (some (.entity "right")) ∧
      ¬ Value.Instance Circle.model "right" (.node "mark" [])) := by
  refine ⟨⟨Sample.ofGrammar_eq, Sample.ofModel_eq, Sample.read_eq, rfl, Sample.propertyType_eq,
    ?_, ?_⟩, Circle.ofGrammar_eq, Circle.ofModel_eq, Circle.read_eq, rfl, Circle.propertyType_eq,
    ?_⟩
  · rintro ⟨x, fields, heq, _⟩
    contradiction
  · rintro ⟨x, fields, heq, hcases⟩
    cases heq
    have hsub : Sample.model.isA "mark" "list" = false := by cbv
    rw [hsub] at hcases
    exact absurd hcases (by decide)
  · rintro ⟨x, fields, heq, hcases⟩
    cases heq
    have hsub : Circle.model.isA "mark" "right" = false := by cbv
    rw [hsub] at hcases
    exact absurd hcases (by decide)

end Ebnf
