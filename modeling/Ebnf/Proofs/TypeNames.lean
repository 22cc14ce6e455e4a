import Ebnf.Proofs.Exports

/-!
# The names of types

A view gives the types of entities and properties by name. The names tell the types apart, unless a
rule has the name that texts or flags go by: its instances cannot be told from these.

* `ValueType.render_eq_iff`: the types that share a name;
* `Item`, `Model.typeAt`, `ModelView.textAt`: what has a type in a model, and how the view shows it;
* `names_tell_types`: when two types that a view shows have the same name.
-/

namespace Ebnf

/-! ## 1. Types that share a name -/

namespace ValueType

/-- Texts or flags, and the entity that has their name. -/
inductive Clash : ValueType → ValueType → Prop where
  | text : Clash .text (.entity "string")
  | boolean : Clash .boolean (.entity "bool")

/-- Different types have different names, but for an entity with the name of another type. -/
theorem render_eq_iff {type type' : ValueType} :
    type.render = type'.render ↔ type = type' ∨ type.Clash type' ∨ type'.Clash type := by
  constructor
  · intro h
    cases type with
    | text =>
      cases type' with
      | text => exact .inl rfl
      | boolean => exact absurd h (by decide)
      | entity n =>
        obtain rfl : "string" = n := h
        exact .inr (.inl .text)
    | boolean =>
      cases type' with
      | text => exact absurd h (by decide)
      | boolean => exact .inl rfl
      | entity n =>
        obtain rfl : "bool" = n := h
        exact .inr (.inl .boolean)
    | entity n =>
      cases type' with
      | text =>
        obtain rfl : n = "string" := h
        exact .inr (.inr .text)
      | boolean =>
        obtain rfl : n = "bool" := h
        exact .inr (.inr .boolean)
      | entity n' =>
        obtain rfl : n = n' := h
        exact .inl rfl
  · rintro (rfl | hclash | hclash)
    · rfl
    · cases hclash <;> rfl
    · cases hclash <;> rfl

end ValueType

/-- A grammar confuses two types if one of them is that of texts or of flags, and the other that of
    a rule with the same name. -/
def Grammar.Confuses (g : Grammar) (type type' : ValueType) : Prop :=
  (type.Clash type' ∨ type'.Clash type) ∧ ∃ r, g.rule? type.render = some r

/-! ## 2. What has a type -/

/-- An entity, or a current property of one, by their places. -/
inductive Item where
  /-- The entity at a place. -/
  | entity (place : Nat)
  /-- The property at a place of the entity at a place. -/
  | property (owner place : Nat)

/-- The type that an entity contributes where it is referred to, or that of a property, where it can
    be decided. -/
def Model.typeAt (m : Model) : Item → Option (Checked (Option ValueType))
  | .entity place => m.entities[place]?.map fun e => some <$> m.effectiveType e.name
  | .property owner place =>
    m.entities[owner]?.bind fun e => e.properties.ids[place]?.map m.propertyType

/-- The name that the view gives for a type. -/
def ModelView.textAt (v : ModelView) : Item → Option (Option String)
  | .entity place => v.entities[place]?.map fun e => some e.effectiveType
  | .property owner place =>
    v.entities[owner]?.bind fun e => e.properties[place]?.map PropertyView.type

/-- What two lists that correspond have at a place. -/
theorem rel_getElem? {α β : Type} {R : α → β → Prop} {xs : List α} {ys : List β}
    (h : List.Forall₂ R xs ys) (i : Nat) : Option.Rel R xs[i]? ys[i]? := by
  induction h generalizing i with
  | nil => exact .none
  | cons hxy _ ih =>
    cases i with
    | zero => exact .some hxy
    | succ i => exact ih i

/-- The name of a type belongs to the type. -/
def ShownAs (type : Checked (Option ValueType)) (text : Option String) : Prop :=
  ∃ t, type = .ok t ∧ text = t.map ValueType.render

theorem PropertyView.shownAs {m : Model} {id : PropertyId} {v : PropertyView}
    (h : PropertyView.ofModel m id = .ok v) : ShownAs (m.propertyType id) v.type := by
  rw [PropertyView.ofModel] at h
  obtain ⟨p, _, h⟩ := Checked.bind_eq_ok.1 h
  obtain ⟨type, htype, h⟩ := Checked.bind_eq_ok.1 h
  obtain ⟨isOptional, _, h⟩ := Checked.bind_eq_ok.1 h
  obtain ⟨isPlural, _, h⟩ := Checked.bind_eq_ok.1 h
  obtain ⟨subsumed, _, h⟩ := Checked.bind_eq_ok.1 h
  cases h
  exact ⟨type, htype, rfl⟩

theorem EntityView.shownAs {m : Model} {e : Entity} {v : EntityView}
    (h : EntityView.ofModel m e = .ok v) :
    ShownAs (some <$> m.effectiveType e.name) (some v.effectiveType) ∧
      List.Forall₂ (fun id p => ShownAs (m.propertyType id) p.type) e.properties.ids
        v.properties := by
  rw [EntityView.ofModel] at h
  obtain ⟨isVirtual, _, h⟩ := Checked.bind_eq_ok.1 h
  obtain ⟨type, htype, h⟩ := Checked.bind_eq_ok.1 h
  obtain ⟨properties, hproperties, h⟩ := Checked.bind_eq_ok.1 h
  have hshown : v.effectiveType = type.render ∧ v.properties = properties := by
    cases haction : e.action with
    | none =>
      rw [haction] at h
      cases h
      exact ⟨rfl, rfl⟩
    | some id =>
      rw [haction] at h
      obtain ⟨action, _, h⟩ := Checked.bind_eq_ok.1 h
      cases h
      exact ⟨rfl, rfl⟩
  rw [htype, hshown.1, hshown.2]
  exact ⟨⟨some type, rfl, rfl⟩, (Checked.forall₂_of_mapM hproperties).imp
    fun _ _ hview => PropertyView.shownAs hview⟩

/-- A view shows the type of everything that has one, and nothing else. -/
theorem ModelView.shownAs {m : Model} {v : ModelView} (h : ModelView.ofModel m = .ok v) (x : Item) :
    Option.Rel ShownAs (m.typeAt x) (v.textAt x) := by
  have hentities : List.Forall₂ (fun e w => EntityView.ofModel m e = .ok w) m.entities
      v.entities := by
    rw [ModelView.ofModel] at h
    obtain ⟨views, hviews, h⟩ := Checked.bind_eq_ok.1 h
    cases h
    exact Checked.forall₂_of_mapM hviews
  cases x with
  | entity place =>
    rw [Model.typeAt, textAt]
    have hrel := rel_getElem? hentities place
    generalize m.entities[place]? = e?, v.entities[place]? = w? at hrel ⊢
    cases hrel with
    | none => exact .none
    | some hview => exact .some (EntityView.shownAs hview).1
  | property owner place =>
    rw [Model.typeAt, textAt]
    have hrel := rel_getElem? hentities owner
    generalize m.entities[owner]? = e?, v.entities[owner]? = w? at hrel ⊢
    cases hrel with
    | none => exact .none
    | some hview =>
      have hrel := rel_getElem? (EntityView.shownAs hview).2 place
      rename_i e w
      show Option.Rel ShownAs (e.properties.ids[place]?.map _) (w.properties[place]?.map _)
      generalize e.properties.ids[place]? = id?, w.properties[place]? = p? at hrel ⊢
      cases hrel with
      | none => exact .none
      | some hshown => exact .some hshown

/-! ## 3. The entities that types name -/

variable {g : Grammar} {m : Model} {e : Entity} {s : Site}

/-- Every property is filled by a leaf. -/
theorem Site.Hosts.exists_feeds (h : s.Hosts m e) {place : Nat} {key : Name} {id : PropertyId}
    (hplace : e.properties[place]? = some (key, id)) : ∃ symbol, s.Feeds place symbol := by
  have hslot : ∀ k < s.plan.width, s.dest (s.property + k) = .field place →
      ∃ symbol, s.Feeds place symbol := by
    intro k hk hdest
    obtain ⟨f, _, _, hf, _⟩ := h.exists_slot hk
    exact ⟨f.symbol, k, getElem?_symbols hf, hdest⟩
  cases hproxy : s.proxy with
  | none =>
    obtain ⟨hlt, rfl⟩ := h.place_plain hproxy hplace
    exact hslot place hlt (by simp [dest, hproxy])
  | some entry =>
    obtain ⟨choice, proxy⟩ := entry
    obtain ⟨rfl, rfl⟩ := h.place_proxy hproxy hplace
    exact hslot 0 (h.chooses choice id hproxy).nonempty (by simp [dest, hproxy])

/-- The type of a property names the entity that the property belongs to, or one that a reference
    names that fills it. -/
theorem Site.Source.mem_names {place : Nat} {key : Name} {id : PropertyId} {p : Property}
    {t : ActionTree} (h : s.Source e place id p t) (htypable : m.Typable) (hosts : s.Hosts m e)
    (he : e ∈ m.entities) (hplace : e.properties[place]? = some (key, id)) (seen : List Name)
    (hreferences : ∀ target n, s.Feeds place (.reference target) →
      m.entityType seen target = .ok (.entity n) → n ∈ m.names) :
    ∃ type, m.treeType seen t = .ok (some type) ∧ ∀ n, type = .entity n → n ∈ m.names := by
  obtain ⟨type, htype, hcases⟩ := h.typed htypable seen
  refine ⟨type, htype, fun n hn => ?_⟩
  subst hn
  rcases hcases with hall | ⟨heq, _⟩
  · obtain ⟨symbol, hfeeds⟩ := hosts.exists_feeds hplace
    have hhas := hall symbol hfeeds
    cases symbol with
    | literal text witness => cases witness <;> cases hhas
    | pattern source => cases hhas
    | reference target => exact hreferences target n hfeeds hhas
  · obtain rfl := ValueType.entity.inj heq
    exact List.mem_map_of_mem he

/-- What a leaf of an entity refers to is there. -/
theorem Site.Hosts.mem_names_of_feeds (h : s.Hosts m e) (hclosed : m.Closed) {place : Nat}
    {key : Name} {id : PropertyId} (hplace : e.properties[place]? = some (key, id)) {target : Name}
    (hfeeds : s.Feeds place (.reference target)) : target ∈ m.names := by
  obtain ⟨i, x, hx, htarget⟩ := ((h.refers_iff hplace).2 hfeeds).exists_action
  exact hclosed i x target hx htarget

/-- The type that an entity contributes names an entity of the model, if any. -/
theorem Build.Reached.mem_names_of_entityType [Unicode.Xid] (h : Build.Reached g m True)
    {n : Name} :
    ∀ {seen : List Name} {name : Name}, name ∈ m.names →
      m.entityType seen name = .ok (.entity n) → n ∈ m.names := by
  obtain ⟨site, hsited⟩ := h.bodies trivial
  have htypable := h.typable
  -- a way through virtual entities ends, since each is new on it
  intro seen
  induction hcount : unseen m.names seen using Nat.strong_induction_on generalizing seen n with
  | _ count ih =>
    intro name hname htype
    obtain ⟨b, hvirtual⟩ := htypable.isVirtual name
    cases b with
    | false =>
      rw [Model.entityType_plain hvirtual] at htype
      cases htype
      exact hname
    | true =>
      by_cases hseen : name ∈ seen
      · rw [Model.entityType_seen hvirtual hseen] at htype
        cases htype
        exact hname
      · obtain ⟨e, id, p, t, hwraps⟩ := hsited.wraps hvirtual
        obtain ⟨key, hproperties⟩ := hwraps.place
        have hplace : e.properties[0]? = some (key, id) := by rw [hproperties]; rfl
        have hless : unseen m.names (name :: seen) < count := hcount ▸
          unseen_lt (fun k hk => List.mem_cons_of_mem _ hk) hname hseen List.mem_cons_self
        obtain ⟨type, htree, hnames⟩ := hwraps.source.mem_names htypable hwraps.hosts
          (Model.mem_of_entity?_eq_some hwraps.entity) hplace (name :: seen)
          fun target n' hfeeds => ih _ hless rfl (hwraps.hosts.mem_names_of_feeds h.closed hplace
            hfeeds)
        rw [Model.entityType_wrapped hvirtual hseen hwraps.wrapped htree] at htype
        exact hnames n (Except.ok.inj htype)

/-- The type of everything that has one can be decided, and names an entity of the model, if
    any. -/
theorem Build.Reached.typeAt_ok [Unicode.Xid] (h : Build.Reached g m True) {x : Item}
    {type : Checked (Option ValueType)} (hx : m.typeAt x = some type) :
    ∃ t, type = .ok (some t) ∧ ∀ n, t = .entity n → n ∈ m.names := by
  obtain ⟨site, hsited⟩ := h.bodies trivial
  have htypable := h.typable
  cases x with
  | entity place =>
    obtain ⟨e, he, rfl⟩ := Option.map_eq_some_iff.1 hx
    obtain ⟨t, ht⟩ := htypable.entityType_ok [] e.name
    refine ⟨t, by rw [Model.effectiveType, ht]; rfl, fun n hn => ?_⟩
    exact h.mem_names_of_entityType (List.mem_map_of_mem (List.mem_of_getElem? he)) (hn ▸ ht)
  | property owner place =>
    obtain ⟨e, he, hid⟩ := Option.bind_eq_some_iff.1 hx
    obtain ⟨id, hlisted, rfl⟩ := Option.map_eq_some_iff.1 hid
    rw [PropertyMap.ids, List.getElem?_map] at hlisted
    obtain ⟨⟨key, _⟩, hplace, rfl⟩ := Option.map_eq_some_iff.1 hlisted
    have hmem := List.mem_of_getElem? he
    have hosts := hsited.hosts_of_mem hmem
    obtain ⟨p, t, hp, ht, hsource⟩ := hosts.exists_source hplace
    obtain ⟨type, htype, hnames⟩ := hsource.mem_names htypable hosts hmem hplace []
      fun target n hfeeds =>
        h.mem_names_of_entityType (hosts.mem_names_of_feeds h.closed hplace hfeeds)
    refine ⟨type, ?_, hnames⟩
    simp only [Model.propertyType, Model.actionType, hp, ht, bind, Except.bind]
    exact htype

/-! ## 4. Names that tell types apart -/

/-- The view of a built model gives a name for the type of every entity and of every property, and
    for nothing else. Two of them are the same just if the types are, or if one is the type of texts
    or of flags and the other that of a rule with the same name. -/
theorem names_tell_types [Unicode.Xid] (h : Model.ofGrammar g = .ok m) :
    ∃ v, ModelView.ofModel m = .ok v ∧ (∀ x, (v.textAt x).isSome = (m.typeAt x).isSome) ∧
      ∀ x y text text', v.textAt x = some text → v.textAt y = some text' →
        ∃ type type', m.typeAt x = some (.ok (some type)) ∧ m.typeAt y = some (.ok (some type')) ∧
          (text = text' ↔ type = type' ∨ g.Confuses type type') := by
  obtain ⟨v, hv, _⟩ := Program.ofModel_eq_ofView h
  obtain ⟨hreached, _⟩ := Build.reached_ofGrammar h
  have hitem : ∀ x text, v.textAt x = some text → ∃ type, m.typeAt x = some (.ok (some type)) ∧
      text = some type.render ∧ ∀ n, type = .entity n → ∃ r, g.rule? n = some r := by
    intro x text htext
    have hrel := ModelView.shownAs hv x
    rw [htext] at hrel
    cases hx : m.typeAt x with
    | none => rw [hx] at hrel; cases hrel
    | some type =>
      rw [hx] at hrel
      cases hrel with
      | some hshown =>
        obtain ⟨t, rfl, rfl⟩ := hshown
        obtain ⟨type, htype, hnames⟩ := hreached.typeAt_ok hx
        obtain rfl := Except.ok.inj htype
        exact ⟨type, rfl, rfl, fun n hn => (hreached.rules.names n).1 (hnames n hn)⟩
  refine ⟨v, hv, fun x => ?_, fun x y text text' hx hy => ?_⟩
  · have hrel := ModelView.shownAs hv x
    generalize m.typeAt x = type?, v.textAt x = text? at hrel ⊢
    cases hrel <;> rfl
  · obtain ⟨type, htype, rfl, hrule⟩ := hitem x text hx
    obtain ⟨type', htype', rfl, hrule'⟩ := hitem y text' hy
    refine ⟨type, type', htype, htype', ?_⟩
    rw [Option.some.injEq, ValueType.render_eq_iff]
    refine or_congr_right ⟨fun hclash => ⟨hclash, ?_⟩, fun hconfused => hconfused.1⟩
    -- one of the two is an entity, which has a rule
    rcases hclash with hclash | hclash
    · cases hclash with
      | text => exact hrule' _ rfl
      | boolean => exact hrule' _ rfl
    · cases hclash with
      | text => exact hrule _ rfl
      | boolean => exact hrule _ rfl

namespace Quote

/-- A text next to a rule that has the name of texts. -/
def grammar : Grammar where
  rules := [
    { name := "quote", body := .sequence (.literal (some "mark") "x") (.reference none "string") },
    { name := "string", body := .sequence (.literal none "a") (.literal none "b") }]

def quote : Entity where
  name := "quote"
  rule := grammar.rule? "quote"
  properties := [("mark", ⟨0⟩), ("string", ⟨1⟩)]
  action := some ⟨2⟩

def string : Entity where
  name := "string"
  rule := grammar.rule? "string"
  action := some ⟨5⟩

/-- The model of the quotes. -/
def model : Model where
  entities := [quote, string]
  properties := #[
    { name := "mark", entity := "quote", source := ⟨0⟩ },
    { name := "string", entity := "quote", source := ⟨1⟩ }]
  actions := #[
    { kind := .literal "x", property := some ⟨0⟩, parent := some ⟨2⟩ },
    { kind := .entity "string", property := some ⟨1⟩, parent := some ⟨2⟩ },
    { kind := .all [⟨0⟩, ⟨1⟩] },
    { kind := .literal "a", parent := some ⟨5⟩ },
    { kind := .literal "b", parent := some ⟨5⟩ },
    { kind := .all [⟨3⟩, ⟨4⟩] }]
  root := some "quote"

theorem walk_eq (events : Array Event) (attached : List (Name × PropertyId)) :
    Build.walk ["quote", "string"] [] ["quote"] { model, events, attached } =
      .ok () { model, events, attached } := by
  have hquote : Build.discover quote { model, events, attached } =
      .ok ["string"] { model, events, attached } := by
    cbv
  have hstring : Build.discover string { model, events, attached } =
      .ok [] { model, events, attached } := by
    cbv
  rw [Build.walk_cons (by decide) rfl hquote, List.append_nil,
    Build.walk_cons (by decide) rfl hstring, List.nil_append, Build.walk]
  rfl

theorem ofGrammar_eq : Model.ofGrammar grammar = .ok model :=
  Build.ofGrammar_of_walk (m := model) (by cbv) rfl
    fun events attached => ⟨_, _, walk_eq events attached⟩

theorem typeAt_mark : model.typeAt (.property 0 0) = some (.ok (some .text)) := by
  cbv

theorem typeAt_string : model.typeAt (.property 0 1) = some (.ok (some (.entity "string"))) := by
  cbv

end Quote

/-- A text goes by the name of a rule that is called `string`. -/
theorem names_tell_types_quote :
    Model.ofGrammar Quote.grammar = .ok Quote.model ∧
    Quote.model.typeAt (.property 0 0) = some (.ok (some .text)) ∧
    Quote.model.typeAt (.property 0 1) = some (.ok (some (.entity "string"))) ∧
    ∃ v text, ModelView.ofModel Quote.model = .ok v ∧ v.textAt (.property 0 0) = some text ∧
      v.textAt (.property 0 1) = some text := by
  refine ⟨Quote.ofGrammar_eq, Quote.typeAt_mark, Quote.typeAt_string, ?_⟩
  obtain ⟨v, hv, hshown, htell⟩ := names_tell_types Quote.ofGrammar_eq
  obtain ⟨text, htext⟩ : ∃ text, v.textAt (.property 0 0) = some text :=
    Option.isSome_iff_exists.1 (by rw [hshown, Quote.typeAt_mark]; rfl)
  obtain ⟨text', htext'⟩ : ∃ text, v.textAt (.property 0 1) = some text :=
    Option.isSome_iff_exists.1 (by rw [hshown, Quote.typeAt_string]; rfl)
  obtain ⟨type, type', htype, htype', hiff⟩ := htell _ _ _ _ htext htext'
  obtain rfl : ValueType.text = type := by
    simpa using Quote.typeAt_mark.symm.trans htype
  obtain rfl : ValueType.entity "string" = type' := by
    simpa using Quote.typeAt_string.symm.trans htype'
  obtain rfl := hiff.2 (.inr ⟨.inl .text, _, rfl⟩)
  exact ⟨v, text, hv, htext, htext'⟩

end Ebnf
