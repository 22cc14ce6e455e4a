import Ebnf.Proofs.Hierarchy

/-!
# Which references become links

The stage of the special cases follows all references from the root on. Where the only property of
an entity does not repeat, the entities it refers to become subs, unless the two are in order
already, or the reference is to a mere text. No other links are made.

* `Model.Leads`, `Model.Hands`: what properties refer to, and what an only property does;
* `Model.Grows`: what the stage changes;
* `Model.Settled`: the only property of an entity has been looked at;
* `discover_proxy`, `discover_reference`: what looking at an entity that gets links does;
* `Build.Surveyed`, `ensures_hierarchy`: everything has that the root leads to.
-/

namespace Ebnf

open Relation (TransGen ReflTransGen)

namespace Model

variable {m m' m'' : Model} {n t : Name}

/-! ## 1. References -/

/-- The only property of an entity. -/
def Only (m : Model) (n : Name) (id : PropertyId) : Prop :=
  ∃ e, m.entity? n = some e ∧ e.properties.ids = [id]

/-- A property refers to an entity. -/
def Refers (m : Model) (id : PropertyId) (t : Name) : Prop :=
  ∃ targets, m.referencedEntities id = .ok targets ∧ t ∈ targets

/-- A property of an entity refers to another one. -/
def Leads (m : Model) (n t : Name) : Prop :=
  ∃ e id, m.entity? n = some e ∧ id ∈ e.properties.ids ∧ m.Refers id t

/-- The only property of an entity refers to another one. -/
def Hands (m : Model) (n t : Name) : Prop :=
  ∃ id, m.Only n id ∧ m.Refers id t

theorem Only.unique {id id' : PropertyId} (h : m.Only n id) (h' : m.Only n id') : id = id' := by
  obtain ⟨e, he, hids⟩ := h
  obtain ⟨e', he', hids'⟩ := h'
  obtain rfl := Option.some.inj (he.symm.trans he')
  rw [hids] at hids'
  exact List.head_eq_of_cons_eq hids'

theorem Hands.leads (h : m.Hands n t) : m.Leads n t := by
  obtain ⟨id, ⟨e, he, hids⟩, hrefers⟩ := h
  exact ⟨e, id, he, by rw [hids]; exact List.mem_singleton_self id, hrefers⟩

/-- A property that is no proxy refers to what its action reads. -/
theorem refers_plain {id : PropertyId} {p : Property} {x : Action} (hp : m.property id = .ok p)
    (hplain : p.isProxy = false) (hx : m.action p.source = .ok x) :
    m.Refers id t ↔ x.target? = some t := by
  have hkind : p.kind = .plain := by
    rw [Property.isProxy] at hplain
    split at hplain
    · contradiction
    · assumption
  have htargets : m.referencedEntities id = .ok x.target?.toList := by
    simp only [referencedEntities, hp, hkind, hx, bind, Except.bind, pure, Except.pure]
  constructor
  · rintro ⟨targets, heq, ht⟩
    obtain rfl := Except.ok.inj (htargets.symm.trans heq)
    exact Option.mem_toList.1 ht
  · exact fun ht => ⟨_, htargets, Option.mem_toList.2 ht⟩

/-- A proxy refers to what the actions of the properties read that it stands for. -/
theorem refers_proxy {id : PropertyId} {p : Property} {subsumed : List PropertyId}
    (hp : m.property id = .ok p) (hkind : p.kind = .proxy subsumed)
    (hok : ∃ names, m.referencedEntities id = .ok names) :
    m.Refers id t ↔ ∃ sub ∈ subsumed, m.sourceTarget? sub = .ok (some t) := by
  obtain ⟨names, hnames⟩ := hok
  have hrefers : m.Refers id t ↔ t ∈ names := by
    constructor
    · rintro ⟨targets, htargets, ht⟩
      obtain rfl := Except.ok.inj (hnames.symm.trans htargets)
      exact ht
    · exact fun ht => ⟨names, hnames, ht⟩
  rw [hrefers]
  rw [referencedEntities] at hnames
  simp only [hp, hkind, bind, Except.bind] at hnames
  cases hfound : subsumed.mapM m.sourceTarget? with
  | error fault => rw [hfound] at hnames; contradiction
  | ok found =>
    have hall := Checked.forall₂_of_mapM hfound
    simp only [hfound, pure, Except.pure, Except.ok.injEq] at hnames
    subst hnames
    rw [List.mem_flatMap]
    constructor
    · rintro ⟨answer, hanswer, ht⟩
      obtain ⟨sub, hmem, hsub⟩ := exists_answer hall.flip hanswer
      exact ⟨sub, hmem, Option.mem_toList.1 ht ▸ hsub⟩
    · rintro ⟨sub, hmem, hsub⟩
      obtain ⟨answer, hanswer, heq⟩ := exists_answer hall hmem
      obtain rfl := Except.ok.inj (heq.symm.trans hsub)
      exact ⟨_, hanswer, Option.mem_toList.2 rfl⟩

/-- What the action of a property reads. -/
theorem sourceTarget?_eq_ok {id : PropertyId} {found : Option Name}
    (h : m.sourceTarget? id = .ok found) :
    ∃ p x, m.property id = .ok p ∧ m.action p.source = .ok x ∧ x.target? = found := by
  rw [sourceTarget?] at h
  cases hp : m.property id with
  | error fault => rw [hp] at h; contradiction
  | ok p =>
    cases hx : m.action p.source with
    | error fault => simp [hp, hx, bind, Except.bind] at h
    | ok x =>
      simp only [hp, hx, bind, Except.bind, pure, Except.pure, Except.ok.injEq] at h
      exact ⟨p, x, rfl, hx, h⟩

/-- What is referred to is read by an action. -/
theorem Refers.exists_action {id : PropertyId} (h : m.Refers id t) :
    ∃ (i : Nat) (x : Action), m.actions[i]? = some x ∧ x.target? = some t := by
  have hok : ∃ names, m.referencedEntities id = .ok names := h.imp fun _ hnames => hnames.1
  cases hp : m.property id with
  | error fault =>
    obtain ⟨names, hnames⟩ := hok
    rw [referencedEntities, hp] at hnames
    contradiction
  | ok p =>
    cases hkind : p.kind with
    | proxy subsumed =>
      obtain ⟨sub, _, hsub⟩ := (refers_proxy hp hkind hok).1 h
      obtain ⟨q, y, _, hy, ht⟩ := sourceTarget?_eq_ok hsub
      exact ⟨_, y, action_eq_ok_iff.1 hy, ht⟩
    | plain =>
      cases hx : m.action p.source with
      | error fault =>
        obtain ⟨names, hnames⟩ := hok
        simp [referencedEntities, hp, hkind, hx, bind, Except.bind] at hnames
      | ok x =>
        have hplain : p.isProxy = false := by rw [Property.isProxy, hkind]
        exact ⟨_, x, action_eq_ok_iff.1 hx, (refers_plain hp hplain hx).1 h⟩

theorem Leads.mem_names (h : m.Leads n t) (hclosed : m.Closed) : t ∈ m.names := by
  obtain ⟨e, id, _, _, hrefers⟩ := h
  obtain ⟨i, x, hx, ht⟩ := hrefers.exists_action
  exact hclosed i x t hx ht

/-! ## 2. What a change of links leaves alone -/

/-- Each entity has its counterpart under its name. -/
theorem SameParts.exists_entity (h : m.SameParts m') {name : Name} {e' : Entity}
    (he' : m'.entity? name = some e') :
    ∃ e, m.entity? name = some e ∧ e'.action = e.action ∧ e'.properties = e.properties := by
  have hfind := congrArg (List.find? fun k => k.1 = name) h.entities
  rw [List.find?_map, List.find?_map] at hfind
  have hparts : (m'.entity? name).map (fun e => (e.name, e.rule, e.action, e.properties)) =
      (m.entity? name).map fun e => (e.name, e.rule, e.action, e.properties) := hfind
  rw [he', Option.map_some] at hparts
  obtain ⟨e, he, heq⟩ := Option.map_eq_some_iff.1 hparts.symm
  simp only [Prod.mk.injEq] at heq
  exact ⟨e, he, heq.2.2.1.symm, heq.2.2.2.symm⟩

theorem SameParts.symm (h : m.SameParts m') : m'.SameParts m :=
  ⟨h.entities.symm, h.properties.symm, h.actions.symm, h.root.symm⟩

theorem SameParts.property_eq (h : m.SameParts m') (id : PropertyId) :
    m'.property id = m.property id := by
  rw [property, property, h.properties]

theorem SameParts.action_eq (h : m.SameParts m') (id : ActionId) : m'.action id = m.action id := by
  rw [action, action, h.actions]

theorem SameParts.isPlural_eq (h : m.SameParts m') (id : PropertyId) :
    m'.isPlural id = m.isPlural id := by
  simp only [isPlural, h.property_eq, lineage_congr h.actions]

theorem SameParts.referencedEntities_eq (h : m.SameParts m') (id : PropertyId) :
    m'.referencedEntities id = m.referencedEntities id := by
  have hsource : m'.sourceTarget? = m.sourceTarget? := by
    funext sub
    simp only [sourceTarget?, h.property_eq, h.action_eq]
  simp only [referencedEntities, h.property_eq, h.action_eq, hsource]

theorem SameParts.only (h : m.SameParts m') {id : PropertyId} (hid : m'.Only n id) :
    m.Only n id := by
  obtain ⟨e', he', hids⟩ := hid
  obtain ⟨e, he, _, hproperties⟩ := h.exists_entity he'
  exact ⟨e, he, hproperties ▸ hids⟩

theorem SameParts.refers (h : m.SameParts m') {id : PropertyId} (hid : m'.Refers id t) :
    m.Refers id t := by
  obtain ⟨targets, htargets, ht⟩ := hid
  exact ⟨targets, h.referencedEntities_eq id ▸ htargets, ht⟩

theorem SameParts.leads (h : m.SameParts m') (hleads : m'.Leads n t) : m.Leads n t := by
  obtain ⟨e', id, he', hid, hrefers⟩ := hleads
  obtain ⟨e, he, _, hproperties⟩ := h.exists_entity he'
  exact ⟨e, id, he, hproperties ▸ hid, h.refers hrefers⟩

theorem SameParts.wrapsTerminal (h : m.SameParts m') {b : Bool}
    (hwraps : Build.wrapsTerminal m' t = .ok b) : Build.wrapsTerminal m t = .ok b := by
  have haction : (m.entity? t).bind Entity.action = (m'.entity? t).bind Entity.action := by
    cases he' : m'.entity? t with
    | some e' =>
      obtain ⟨e, he, haction, _⟩ := h.exists_entity he'
      rw [he, Option.bind_some, Option.bind_some, haction]
    | none =>
      cases he : m.entity? t with
      | none => rfl
      | some e =>
        obtain ⟨_, hsome, _⟩ := h.symm.exists_entity he
        rw [he'] at hsome
        contradiction
  simp only [Build.wrapsTerminal, h.action_eq] at hwraps
  rw [Build.wrapsTerminal, haction]
  exact hwraps

theorem Closed.of_sameParts (h : m.Closed) (hparts : m.SameParts m') : m'.Closed := by
  intro i x t hx ht
  rw [hparts.actions] at hx
  rw [hparts.names_eq]
  exact h i x t hx ht

/-! ## 3. Links that are made and links that are not -/

/-- The root leads to an entity, over any number of references. -/
def Reachable (m : Model) (n : Name) : Prop :=
  ∃ root, m.root = some root ∧ ReflTransGen m.Leads root n

theorem Reachable.leads (h : m.Reachable n) (hleads : m.Leads n t) : m.Reachable t := by
  obtain ⟨root, hroot, hway⟩ := h
  exact ⟨root, hroot, hway.tail hleads⟩

/-- The only property of an entity does not repeat, and refers to another one. -/
def Offers (m : Model) (n t : Name) : Prop :=
  ∃ id, m.Only n id ∧ m.isPlural id = .ok false ∧ m.Refers id t

/-- An entity whose only property is filled by a mere text has a super already. -/
def Spares (m : Model) (n t : Name) : Prop :=
  ∃ id p, m.Only n id ∧ m.property id = .ok p ∧ p.isProxy = false ∧
    Build.wrapsTerminal m t = .ok true ∧ ∃ y, m.Super n y

/-- Two entities are the same, or one is a special case of the other. -/
def Comparable (m : Model) (x y : Name) : Prop :=
  x = y ∨ m.isA x y = true ∨ m.isA y x = true

/-- Every entity to which the only property of an entity refers is in order with it, unless the
    property repeats or the reference is to a mere text. -/
def Resolved (m : Model) (n : Name) : Prop :=
  ∀ t, m.Offers n t → m.Comparable t n ∨ m.Spares n t

/-- Why an entity is no sub of one whose only property refers to it: the property repeats, the link
    would lead in a circle, or it is to a mere text. -/
inductive Unlinked (m : Model) (n t : Name) : Prop where
  | repeats {id : PropertyId} (only : m.Only n id) (plural : m.isPlural id = .ok true)
  | circle (above : m.isA n t = true)
  | terminal {id : PropertyId} {p : Property} (only : m.Only n id)
    (property : m.property id = .ok p) (plain : p.isProxy = false)
    (wraps : Build.wrapsTerminal m t = .ok true)

/-- Every entity to which the only property of an entity refers is a sub, over any number of links,
    or there is a reason why it is not. -/
def Settled (m : Model) (n : Name) : Prop :=
  ∀ t, m.Hands n t → t = n ∨ m.isA t n = true ∨ m.Unlinked n t

theorem Offers.hands (h : m.Offers n t) : m.Hands n t := by
  obtain ⟨id, honly, _, hrefers⟩ := h
  exact ⟨id, honly, hrefers⟩

theorem Comparable.symm {x y : Name} (h : m.Comparable x y) : m.Comparable y x :=
  h.imp Eq.symm Or.symm

theorem Comparable.linked (h : m.Comparable t n) :
    t = n ∨ m.isA t n = true ∨ m.Unlinked n t := by
  rcases h with heq | hsub | hsuper
  · exact .inl heq
  · exact .inr (.inl hsub)
  · exact .inr (.inr (.circle hsuper))

/-- An entity that is in order with all to which its only property refers has them as subs, or there
    is a reason why not. -/
theorem Resolved.settled (h : m.Resolved n)
    (hplural : ∀ id, m.Only n id → ∃ b, m.isPlural id = .ok b) : m.Settled n := by
  rintro t ⟨id, honly, hrefers⟩
  obtain ⟨plural, hplural⟩ := hplural id honly
  cases plural with
  | true => exact .inr (.inr (.repeats honly hplural))
  | false =>
    rcases h t ⟨id, honly, hplural, hrefers⟩ with hcomparable | ⟨_, _, honly, hp, hplain, hwraps, _⟩
    · exact hcomparable.linked
    · exact .inr (.inr (.terminal honly hp hplain hwraps))

/-- Links are added, and nothing else changes. Every new one goes to an entity that the root leads
    to, and whose only property does not repeat and refers to where it comes from. -/
structure Grows (m m' : Model) : Prop where
  parts : m.SameParts m'
  kept : ∀ x y, m.Super x y → m'.Super x y
  made : ∀ x y, m'.Super x y → m.Super x y ∨ m.Reachable y ∧ m.Offers y x

theorem SameParts.reachable (h : m.SameParts m') (hn : m'.Reachable n) : m.Reachable n := by
  obtain ⟨root, hroot, hway⟩ := hn
  exact ⟨root, h.root ▸ hroot, ReflTransGen.mono (fun _ _ => h.leads) _ _ hway⟩

theorem SameParts.offers (h : m.SameParts m') (hoffers : m'.Offers n t) : m.Offers n t := by
  obtain ⟨id, honly, hplural, hrefers⟩ := hoffers
  exact ⟨id, h.only honly, h.isPlural_eq id ▸ hplural, h.refers hrefers⟩

theorem Grows.refl (m : Model) : m.Grows m :=
  ⟨.refl m, fun _ _ h => h, fun _ _ h => .inl h⟩

theorem Grows.trans (h : m.Grows m') (h' : m'.Grows m'') : m.Grows m'' where
  parts := h.parts.trans h'.parts
  kept := fun x y hlink => h'.kept x y (h.kept x y hlink)
  made := by
    intro x y hlink
    rcases h'.made x y hlink with hold | ⟨hreach, hoffers⟩
    · exact h.made x y hold
    · exact .inr ⟨h.parts.reachable hreach, h.parts.offers hoffers⟩

/-- Entities that are in order stay so when links are added. -/
theorem Comparable.mono (hkept : ∀ x y, m.Super x y → m'.Super x y) {x y : Name}
    (h : m.Comparable x y) : m'.Comparable x y := by
  have hisA : ∀ x y, m.isA x y = true → m'.isA x y = true := fun x y hway =>
    isA_iff.2 (TransGen.mono hkept _ _ (isA_iff.1 hway))
  exact h.imp id (Or.imp (hisA _ _) (hisA _ _))

theorem Resolved.grow (h : m.Grows m') (hn : m.Resolved n) : m'.Resolved n := by
  intro t hoffers
  rcases hn t (h.parts.offers hoffers) with hcomparable | ⟨id, p, honly, hp, hplain, hwraps, y, hy⟩
  · exact .inl (hcomparable.mono h.kept)
  · exact .inr ⟨id, p, h.parts.symm.only honly, (h.parts.property_eq id).trans hp, hplain,
      h.parts.symm.wrapsTerminal hwraps, y, h.kept n y hy⟩

/-- A link that is not added is there already, or would lead in a circle. -/
theorem of_register?_eq_none {parent child : Name} (h : m.register? parent child = none)
    (hparent : parent ∈ m.names) (hchild : child ∈ m.names) :
    m.Comparable child parent := by
  rw [register?] at h
  split at h
  · next hfound =>
    rcases hfound with hself | hsub | hsuper | hno | hno
    · exact .inl hself.symm
    · exact .inr (.inl hsub)
    · exact .inr (.inr hsuper)
    · exact absurd hparent hno
    · exact absurd hchild hno
  · contradiction

/-- Entities that are in order are not linked. -/
theorem Comparable.register?_eq_none {parent child : Name} (h : m.Comparable child parent) :
    m.register? parent child = none := by
  rw [register?, if_pos]
  rcases h with heq | hsub | hsuper
  · exact .inl heq.symm
  · exact .inr (.inl hsub)
  · exact .inr (.inr (.inl hsuper))

/-! ## 4. Several links to one entity -/

/-- Links from some entities to one are added, and nothing else changes. -/
structure Gains (m m' : Model) (parent : Name) (children : List Name) : Prop where
  parts : m.SameParts m'
  kept : ∀ x y, m.Super x y → m'.Super x y
  made : ∀ x y, m'.Super x y → m.Super x y ∨ y = parent ∧ x ∈ children
  ranked : m.Ranked → m'.Ranked

theorem Gains.refl (m : Model) (parent : Name) (children : List Name) :
    m.Gains m parent children :=
  ⟨.refl m, fun _ _ h => h, fun _ _ h => .inl h, id⟩

theorem Gains.append {parent : Name} {children more : List Name} (h : m.Gains m' parent children)
    (h' : m'.Gains m'' parent more) : m.Gains m'' parent (children ++ more) where
  parts := h.parts.trans h'.parts
  kept := fun x y hlink => h'.kept x y (h.kept x y hlink)
  made := by
    intro x y hlink
    rcases h'.made x y hlink with hold | ⟨rfl, hx⟩
    · exact (h.made x y hold).imp_right fun ⟨hy, hx⟩ => ⟨hy, List.mem_append_left _ hx⟩
    · exact .inr ⟨rfl, List.mem_append_right _ hx⟩
  ranked := h'.ranked ∘ h.ranked

/-- A model with a new link. -/
theorem gains_register {parent child : Name} (h : m.register? parent child = some m') :
    m.Gains m' parent [child] ∧ m'.Comparable child parent := by
  have hranked : m.Ranked → m'.Ranked := fun hranked => (hranked.register h).1
  obtain ⟨rfl, _, _, _, hchild⟩ := register?_eq_some h
  refine ⟨⟨m.sameParts_linked parent child, fun x y hlink => ?_, fun x y hlink => ?_, hranked⟩, ?_⟩
  · exact (super_linked_iff hchild).2 (.inl hlink)
  · exact ((super_linked_iff hchild).1 hlink).imp_right fun ⟨hx, hy⟩ =>
      ⟨hy, List.mem_singleton.2 hx⟩
  · exact .inr (.inl (isA_iff.2 (.single ((super_linked_iff hchild).2 (.inr ⟨rfl, rfl⟩)))))

/-- The model after an attempt to link two entities. -/
def attempt (m : Model) (parent child : Name) : Model :=
  (m.register? parent child).getD m

/-- The model after an attempt to link several entities to one. -/
def adopt (m : Model) (parent : Name) (children : List Name) : Model :=
  children.foldl (fun m child => m.attempt parent child) m

theorem gains_attempt (m : Model) (parent child : Name) :
    m.Gains (m.attempt parent child) parent [child] := by
  rw [attempt]
  cases hreg : m.register? parent child with
  | none => exact .refl m parent [child]
  | some m' => exact (gains_register hreg).1

theorem comparable_attempt {parent child : Name} (hparent : parent ∈ m.names)
    (hchild : child ∈ m.names) : (m.attempt parent child).Comparable child parent := by
  rw [attempt]
  cases hreg : m.register? parent child with
  | none => exact of_register?_eq_none hreg hparent hchild
  | some m' => exact (gains_register hreg).2

theorem gains_adopt (parent : Name) (children : List Name) :
    ∀ m : Model, m.Gains (m.adopt parent children) parent children := by
  induction children with
  | nil => exact fun m => .refl m parent []
  | cons child rest ih => exact fun m => (m.gains_attempt parent child).append (ih _)

/-- Afterwards the entities are in order with the one. -/
theorem comparable_adopt {parent : Name} (children : List Name) :
    ∀ {m : Model}, parent ∈ m.names → (∀ child ∈ children, child ∈ m.names) →
      ∀ child ∈ children, (m.adopt parent children).Comparable child parent := by
  induction children with
  | nil => exact fun _ _ child hchild => absurd hchild List.not_mem_nil
  | cons first rest ih =>
    intro m hparent hin child hchild
    have hnames := (m.gains_attempt parent first).parts.names_eq
    rcases List.mem_cons.1 hchild with rfl | hchild
    · exact (comparable_attempt hparent (hin _ List.mem_cons_self)).mono (gains_adopt _ rest _).kept
    · exact ih (hnames.symm ▸ hparent)
        (fun other hother => hnames.symm ▸ hin other (List.mem_cons_of_mem _ hother)) child hchild

/-- Where they are so before, there is nothing to add. -/
theorem adopt_eq_self {parent : Name} {children : List Name}
    (h : ∀ child ∈ children, m.Comparable child parent) : m.adopt parent children = m := by
  induction children with
  | nil => rfl
  | cons child rest ih =>
    rw [adopt, List.foldl_cons, attempt, (h child List.mem_cons_self).register?_eq_none,
      Option.getD_none]
    exact ih fun other hother => h other (List.mem_cons_of_mem _ hother)

/-- What looking at an entity does to a model, and to which entities it leads on: no link is due,
    those referred to are linked, or the only one is a mere text that is let be. -/
inductive Looks (m : Model) (n : Name) : Model → List Name → Prop where
  | passes {next : List Name} (idle : ∀ t, ¬ m.Offers n t) (onward : ∀ t, m.Leads n t ↔ t ∈ next) :
    Looks m n m next
  | adopts {next : List Name} (offers : ∀ t ∈ next, m.Offers n t) (due : ∀ t ∈ next, ¬ m.Spares n t)
    (onward : ∀ t, m.Leads n t ↔ t ∈ next) : Looks m n (m.adopt n next) next
  | spares {t : Name} (spared : m.Spares n t) (onward : ∀ t', m.Leads n t' ↔ t' = t) :
    Looks m n m []

theorem Looks.parts {next : List Name} (h : m.Looks n m' next) : m.SameParts m' := by
  cases h with
  | passes => exact .refl m
  | adopts => exact (gains_adopt n next m).parts
  | spares => exact .refl m

/-- The walk goes on to what an entity leads to, but for mere texts. -/
theorem Looks.onward {next : List Name} (h : m.Looks n m' next) (hleads : m.Leads n t) :
    t ∈ next ∨ Build.wrapsTerminal m t = .ok true := by
  cases h with
  | passes _ onward => exact .inl ((onward t).1 hleads)
  | adopts _ _ onward => exact .inl ((onward t).1 hleads)
  | spares spared onward =>
    obtain rfl := (onward t).1 hleads
    obtain ⟨_, _, _, _, _, hwraps, _⟩ := spared
    exact .inr hwraps

/-- The walk goes on to nothing else. -/
theorem Looks.leads {next : List Name} (h : m.Looks n m' next) (ht : t ∈ next) : m.Leads n t := by
  cases h with
  | passes _ onward => exact (onward t).2 ht
  | adopts _ _ onward => exact (onward t).2 ht
  | spares => exact absurd ht List.not_mem_nil

/-- An entity that was looked at is in order with what its only property refers to. -/
theorem Looks.resolved {next : List Name} (h : m.Looks n m' next) (hclosed : m.Closed) :
    m'.Resolved n := by
  have hparts := h.parts
  cases h with
  | passes idle => exact fun t hoffers => absurd hoffers (idle t)
  | adopts _ _ onward =>
    intro t hoffers
    obtain ⟨e, _, he, _⟩ := (hparts.offers hoffers).hands.leads
    refine .inl (comparable_adopt next (mem_names_iff.2 ⟨e, he⟩) (fun s hs => ?_) t ?_)
    · exact ((onward s).2 hs).mem_names hclosed
    · exact (onward t).1 (hparts.offers hoffers).hands.leads
  | spares spared onward =>
    intro t hoffers
    obtain rfl := (onward t).1 hoffers.hands.leads
    exact .inr spared

/-- Looking at an entity that the root leads to adds links only. -/
theorem Looks.grows {next : List Name} (h : m.Looks n m' next) (hn : m.Reachable n)
    (hranked : m.Ranked) : m.Grows m' ∧ m'.Ranked := by
  cases h with
  | passes => exact ⟨.refl m, hranked⟩
  | adopts offers =>
    have hgains := gains_adopt n next m
    refine ⟨⟨hgains.parts, hgains.kept, fun x y hlink => ?_⟩, hgains.ranked hranked⟩
    exact (hgains.made x y hlink).imp_right fun ⟨hy, hx⟩ => hy ▸ ⟨hn, offers x hx⟩
  | spares => exact ⟨.refl m, hranked⟩

/-- Looking again at an entity that is in order with what its only property refers to changes
    nothing. -/
theorem Looks.eq_self {next : List Name} (h : m.Looks n m' next) (hn : m.Resolved n) : m' = m := by
  cases h with
  | passes => rfl
  | adopts offers due =>
    exact adopt_eq_self fun t ht => (hn t (offers t ht)).resolve_right (due t ht)
  | spares => rfl

end Model

namespace Build

variable {d : Draft} {E : BuildStop → Prop}

/-! ## 5. One entity -/

/-- A link that can be made is made. -/
theorem registerSub_some {m : Model} {parent child : Name}
    (h : d.model.register? parent child = some m) : registerSub parent child d =
      .ok () { d with model := m, events := d.events.push (.subFound parent child) } := by
  rw [registerSub, model_bind, h]
  rfl

/-- Any other is not. -/
theorem registerSub_none {parent child : Name} (h : d.model.register? parent child = none) :
    registerSub parent child d =
      .ok () { d with events := d.events.push (.subSkipped parent child) } := by
  rw [registerSub, model_bind, h]
  rfl

/-- What is done with an entity depends on its only property, unless that is plural. -/
theorem discover_single {e : Entity} {id : PropertyId} {p : Property}
    (hids : e.properties.ids = [id]) (hsingle : d.model.isPlural id = .ok false)
    (hp : d.model.property id = .ok p) :
    discover e d = (if p.isProxy then do
        let targets ← check (d.model.referencedEntities id)
        targets.forM (registerSub e.name)
        return targets
      else do
        let some target := (← check (d.model.action p.source)).target? | return []
        if (← check (wrapsTerminal d.model target)) && !e.supers.isEmpty then return []
        registerSub e.name target
        return [target] : Build (List Name)) d := by
  rw [discover, model_bind, hids]
  show (check (d.model.isPlural id) >>= _) d = _
  rw [check_bind hsingle]
  exact congrFun (check_bind hp _) d

/-- An entity whose property stands for the branches of a choice is linked to each of them. -/
theorem discover_proxy {e : Entity} {id : PropertyId} {p : Property} {targets : List Name}
    {d' : Draft} (hids : e.properties.ids = [id]) (hsingle : d.model.isPlural id = .ok false)
    (hp : d.model.property id = .ok p) (hproxy : p.isProxy = true)
    (htargets : d.model.referencedEntities id = .ok targets)
    (hlinks : targets.forM (registerSub e.name) d = .ok () d') :
    discover e d = .ok targets d' := by
  rw [discover_single hids hsingle hp, if_pos hproxy, check_bind htargets, bind_of_ok hlinks]
  rfl

/-- An entity whose property is filled by a reference is linked to what that reads, unless the
    entity has supers and that is a mere text. -/
theorem discover_reference {e : Entity} {id : PropertyId} {p : Property} {x : Action}
    {target : Name} {wraps : Bool} {d' : Draft} (hids : e.properties.ids = [id])
    (hsingle : d.model.isPlural id = .ok false) (hp : d.model.property id = .ok p)
    (hplain : p.isProxy = false) (hx : d.model.action p.source = .ok x)
    (htarget : x.target? = some target) (hwraps : wrapsTerminal d.model target = .ok wraps)
    (hdue : (wraps && !e.supers.isEmpty) = false)
    (hlink : registerSub e.name target d = .ok () d') : discover e d = .ok [target] d' := by
  rw [discover_single hids hsingle hp, if_neg (Bool.eq_false_iff.1 hplain), check_bind hx, htarget]
  show (check (wrapsTerminal d.model target) >>= _) d = _
  rw [check_bind hwraps, if_neg (Bool.eq_false_iff.1 hdue), bind_of_ok hlink]
  rfl

theorem ensures_registerSub (parent child : Name) (d : Draft) :
    Ensures (registerSub parent child) d E fun _ d' =>
      d'.model = d.model.attempt parent child := by
  unfold Ensures
  rw [Model.attempt]
  cases hreg : d.model.register? parent child with
  | none =>
    rw [registerSub_none hreg]
    rfl
  | some m =>
    rw [registerSub_some hreg]
    rfl

theorem ensures_registerSubs (parent : Name) (children : List Name) (d : Draft) :
    Ensures (children.forM (registerSub parent)) d E fun _ d' =>
      d'.model = d.model.adopt parent children := by
  refine ensures_forM (I := fun done d' => d'.model = d.model.adopt parent done)
    (fun done child rest _ d₁ hd₁ => ?_) rfl
  refine (ensures_registerSub parent child d₁).mono (fun _ h => h) fun _ d₂ hd₂ => ?_
  rw [hd₂, hd₁, Model.adopt, Model.adopt, List.foldl_append]
  rfl

/-- The text of a rule that is a single one can be told apart. -/
theorem wrapsTerminal_ok {m : Model} (h : ∀ e ∈ m.entities, m.Orderly e) (name : Name) :
    ∃ b, wrapsTerminal m name = .ok b := by
  rw [wrapsTerminal]
  cases he : m.entity? name with
  | none => exact ⟨false, rfl⟩
  | some e =>
    cases haction : e.action with
    | none =>
      refine ⟨false, ?_⟩
      simp only [Option.bind_some, haction]
    | some id =>
      obtain ⟨x, hx⟩ := (h e (Model.mem_of_entity?_eq_some he)).action id haction
      refine ⟨x.isValueTerminal, ?_⟩
      simp only [Option.bind_some, haction, bind, Except.bind, Model.action_eq_ok_iff.2 hx, pure,
        Except.pure]

/-- What the properties of an orderly entity refer to can be told. -/
theorem allReferences_ok {m : Model} {e : Entity} (h : m.Orderly e) :
    ∃ names, allReferences m e.properties.ids = .ok names ∧
      ∀ t, t ∈ names ↔ ∃ id ∈ e.properties.ids, m.Refers id t := by
  obtain ⟨names, hnames, hall⟩ := Checked.mapM_ok (f := m.referencedEntities)
    e.properties.ids (P := fun id names => m.referencedEntities id = .ok names) fun id hid => by
      obtain ⟨⟨key, id'⟩, hmem, rfl⟩ := List.mem_map.1 hid
      obtain ⟨names, hnames⟩ := (h.properties key id' hmem).referencedEntities_ok
      exact ⟨names, hnames, hnames⟩
  refine ⟨names.flatten, ?_, fun t => ⟨fun ht => ?_, fun ⟨id, hid, targets, htargets, ht⟩ => ?_⟩⟩
  · rw [allReferences, hnames]
    rfl
  · obtain ⟨targets, htargets, ht⟩ := List.mem_flatten.1 ht
    obtain ⟨id, hid, heq⟩ := exists_answer hall.flip htargets
    exact ⟨id, hid, targets, heq, ht⟩
  · obtain ⟨answer, hanswer, heq⟩ := exists_answer hall hid
    obtain rfl := Except.ok.inj (heq.symm.trans htargets)
    exact List.mem_flatten.2 ⟨answer, hanswer, ht⟩

/-- An entity is linked to what a single reference reads, unless that is a mere text. -/
theorem ensures_discover_reference (horderly : ∀ e ∈ d.model.entities, d.model.Orderly e)
    {e : Entity} {id : PropertyId} {p : Property} {x : Action}
    (he : d.model.entity? e.name = some e) (honly : d.model.Only e.name id)
    (hsingle : d.model.isPlural id = .ok false) (hp : d.model.property id = .ok p)
    (hplain : p.isProxy = false) (hx : d.model.action p.source = .ok x)
    (hleads : ∀ t, d.model.Leads e.name t ↔ d.model.Refers id t) :
    Ensures (do
        let some target := x.target? | return []
        if (← check (wrapsTerminal d.model target)) && !e.supers.isEmpty then return []
        registerSub e.name target
        return [target]) d E fun next d' => d.model.Looks e.name d'.model next := by
  have hreads : ∀ t, d.model.Leads e.name t ↔ x.target? = some t := fun t =>
    (hleads t).trans (Model.refers_plain hp hplain hx)
  cases htarget : x.target? with
  | none =>
    have hnone : ∀ t, ¬ d.model.Leads e.name t := by
      intro t ht
      have hread := (hreads t).1 ht
      rw [htarget] at hread
      contradiction
    exact .passes (fun t ht => hnone t ht.hands.leads) fun t =>
      iff_of_false (hnone t) List.not_mem_nil
  | some target =>
    have hreads : ∀ t, d.model.Leads e.name t ↔ t = target := fun t => by
      rw [hreads t, htarget, Option.some.injEq, eq_comm]
    obtain ⟨wraps, hwraps⟩ := wrapsTerminal_ok horderly target
    show Ensures (check (wrapsTerminal d.model target) >>= _) d _ _
    rw [ensures_bind, ensures_check_ok hwraps]
    have hsupers : e.supers.isEmpty = false ↔ ∃ y, d.model.Super e.name y := by
      rw [List.isEmpty_eq_false_iff_exists_mem]
      refine exists_congr fun y => ⟨fun hy => ⟨e, he, hy⟩, fun ⟨e', he', hy⟩ => ?_⟩
      obtain rfl := Option.some.inj (he.symm.trans he')
      exact hy
    split
    · next hskip =>
      rw [Bool.and_eq_true_iff, Bool.not_eq_true'] at hskip
      obtain ⟨rfl, hsuper⟩ := hskip
      exact .spares ⟨id, p, honly, hp, hplain, hwraps, hsupers.1 hsuper⟩ hreads
    · next hdue =>
      rw [ensures_bind]
      refine (ensures_registerSub e.name target d).mono (fun _ h => h) fun _ d' hd' => ?_
      have hadopt : d'.model = d.model.adopt e.name [target] := hd'
      rw [ensures_pure, hadopt]
      refine .adopts (fun t ht => ?_) (fun t ht hspares => ?_) fun t => ?_
      · obtain rfl := List.mem_singleton.1 ht
        exact ⟨id, honly, hsingle, (hleads t).1 ((hreads t).2 rfl)⟩
      · obtain rfl := List.mem_singleton.1 ht
        obtain ⟨_, _, _, _, _, htext, hsuper⟩ := hspares
        obtain rfl := Except.ok.inj (hwraps.symm.trans htext)
        rw [hsupers.2 hsuper] at hdue
        exact hdue rfl
      · rw [hreads t, List.mem_singleton]

/-- What looking at an entity does. -/
theorem ensures_discover (horderly : ∀ e ∈ d.model.entities, d.model.Orderly e) {e : Entity}
    (he : d.model.entity? e.name = some e) :
    Ensures (discover e) d E fun next d' => d.model.Looks e.name d'.model next := by
  have hmem := Model.mem_of_entity?_eq_some he
  obtain ⟨names, hnames, hall⟩ := allReferences_ok (horderly e hmem)
  have hlisted : ∀ t, d.model.Leads e.name t ↔ ∃ id ∈ e.properties.ids, d.model.Refers id t := by
    refine fun t => ⟨?_, fun ⟨id, hid, hrefers⟩ => ⟨e, id, he, hid, hrefers⟩⟩
    rintro ⟨e', id, he', hid, hrefers⟩
    obtain rfl := Option.some.inj (he.symm.trans he')
    exact ⟨id, hid, hrefers⟩
  have honward : ∀ t, d.model.Leads e.name t ↔ t ∈ names := fun t =>
    (hlisted t).trans (hall t).symm
  rw [discover, ensures_bind, ensures_model]
  split
  · next only hids =>
    have honly : d.model.Only e.name only := ⟨e, he, hids⟩
    have hleads : ∀ t, d.model.Leads e.name t ↔ d.model.Refers only t := fun t => by
      rw [hlisted t, hids]
      simp only [List.mem_singleton, exists_eq_left]
    obtain ⟨⟨key, id⟩, hentry, rfl⟩ := List.mem_map.1
      (show only ∈ e.properties.ids from hids ▸ List.mem_singleton_self only)
    have hlists := (horderly e hmem).properties key id hentry
    obtain ⟨plural, hplural⟩ := hlists.isPlural_ok
    rw [ensures_bind, ensures_check_ok hplural]
    cases plural with
    | true =>
      rw [hids] at hnames
      simp only [if_true]
      rw [ensures_check_ok hnames]
      refine .passes (fun t ⟨id', honly', hsingle, _⟩ => ?_) honward
      obtain rfl := honly.unique honly'
      exact absurd (Except.ok.inj (hsingle.symm.trans hplural)) Bool.false_ne_true
    | false =>
      obtain ⟨targets, htargets⟩ := hlists.referencedEntities_ok
      have hrefers : ∀ t, d.model.Refers id t ↔ t ∈ targets := by
        refine fun t => ⟨?_, fun ht => ⟨targets, htargets, ht⟩⟩
        rintro ⟨targets', htargets', ht⟩
        obtain rfl := Except.ok.inj (htargets.symm.trans htargets')
        exact ht
      obtain ⟨p, x, hlinked, _⟩ := hlists
      have hp := Model.property_eq_ok_iff.2 hlinked.property
      have hx := Model.action_eq_ok_iff.2 hlinked.source
      simp only [Bool.false_eq_true, if_false]
      rw [ensures_bind, ensures_check_ok hp]
      split
      · next hproxy =>
        rw [ensures_bind, ensures_check_ok htargets, ensures_bind]
        refine (ensures_registerSubs e.name targets d).mono (fun _ h => h) fun _ d' hd' => ?_
        rw [ensures_pure, hd']
        refine .adopts (fun t ht => ⟨id, honly, hplural, (hrefers t).2 ht⟩) ?_ fun t =>
          (hleads t).trans (hrefers t)
        rintro t _ ⟨id', p', honly', hp', hplain, _⟩
        obtain rfl := honly.unique honly'
        obtain rfl := Except.ok.inj (hp.symm.trans hp')
        rw [hproxy] at hplain
        contradiction
      · next hproxy =>
        rw [ensures_bind, ensures_check_ok hx]
        exact ensures_discover_reference horderly he honly hplural hp (Bool.eq_false_iff.2 hproxy)
          hx hleads
  · next hids =>
    rw [ensures_check_ok hnames]
    refine .passes (fun t ht => ?_) honward
    obtain ⟨id, ⟨e', he', hid⟩, _⟩ := ht
    obtain rfl := Option.some.inj (he.symm.trans he')
    exact hids id hid

/-! ## 6. The walk -/

/-- One step of the walk. -/
theorem walk_cons {names visited rest next : List Name} {name : Name} {d d' : Draft} {e : Entity}
    (hnew : name ∉ visited ∧ name ∈ names) (he : d.model.entity? name = some e)
    (hnext : discover e d = .ok next d') :
    walk names visited (name :: rest) d = walk names (name :: visited) (next ++ rest) d' := by
  rw [walk, dif_pos hnew, model_bind, he]
  exact bind_of_ok hnext

/-- A name that was looked at before, or is of no entity, is passed over. -/
theorem walk_pass {names visited rest : List Name} {name : Name}
    (hold : ¬ (name ∉ visited ∧ name ∈ names)) (d : Draft) :
    walk names visited (name :: rest) d = walk names visited rest d := by
  rw [walk, dif_neg hold]

/-- What each step of a walk carries on: it looks at an entity, or passes over a name that it has
    looked at before or that is of no entity. -/
structure Carries (I : Model → List Name → List Name → Prop) : Prop where
  look : ∀ {m m' name visited rest next}, I m visited (name :: rest) → m.Looks name m' next →
    I m' (name :: visited) (next ++ rest)
  pass : ∀ {m name visited rest}, I m visited (name :: rest) → name ∈ visited ∨ name ∉ m.names →
    I m visited rest

/-- What each step of a walk carries on holds when the walk is done. -/
theorem ensures_walk {I : Model → List Name → List Name → Prop} (hI : Carries I) (names : List Name)
    (visited stack : List Name) : ∀ {d : Draft}, (∀ e ∈ d.model.entities, d.model.Orderly e) →
      d.model.names = names → I d.model visited stack →
      Ensures (walk names visited stack) d E fun _ d' => ∃ done, I d'.model done [] := by
  induction visited, stack using walk.induct names with
  | case1 visited =>
    intro d _ _ hd
    rw [walk]
    exact ⟨visited, hd⟩
  | case2 visited name rest hnew ihrest ihnext =>
    intro d horderly hnames hd
    rw [walk, dif_pos hnew, ensures_bind, ensures_model]
    obtain ⟨e, he⟩ := Model.mem_names_iff.1 (hnames ▸ hnew.2)
    obtain rfl := Model.name_of_entity?_eq_some he
    rw [he]
    show Ensures (discover e >>= _) d _ _
    rw [ensures_bind]
    refine (ensures_discover horderly he).mono (fun _ h => h) fun next d' hlooks => ?_
    exact ihnext next (hlooks.parts.orderly horderly) (hlooks.parts.names_eq.trans hnames)
      (hI.look hd hlooks)
  | case3 visited name rest hold ihrest =>
    intro d horderly hnames hd
    rw [walk, dif_neg hold]
    refine ihrest horderly hnames (hI.pass hd ?_)
    by_cases hname : name ∈ visited
    · exact .inl hname
    · exact .inr fun hin => hold ⟨hname, hnames ▸ hin⟩

/-- The same for the stage as a whole, whose walk starts at the root. -/
theorem ensures_hierarchy_carries {I : Model → List Name → List Name → Prop} (hI : Carries I)
    (horderly : ∀ e ∈ d.model.entities, d.model.Orderly e)
    (hstart : I d.model [] d.model.root.toList) :
    Ensures hierarchy d E fun _ d' => ∃ done, I d'.model done [] := by
  rw [hierarchy, ensures_bind, ensures_model]
  cases hroot : d.model.root with
  | none =>
    rw [hroot] at hstart
    exact ⟨[], hstart⟩
  | some root =>
    rw [hroot] at hstart
    exact ensures_walk hI d.model.names [] [root] horderly rfl hstart

/-! ## 7. The stage of the special cases -/

/-- What the stage keeps: the entities up to their links, and the order. -/
def Keeps (m m' : Model) : Prop :=
  m.Grows m' ∧ m'.Ranked

theorem Keeps.trans {m m' m'' : Model} (h : Keeps m m') (h' : Keeps m' m'') : Keeps m m'' :=
  ⟨h.1.trans h'.1, h'.2⟩

/-- The walk is done with some entities: it has looked at them, and goes on from all to which they
    lead, but for mere texts. It started at the root and follows references only. -/
structure Walked (m : Model) (visited stack : List Name) : Prop where
  led : ∀ n ∈ stack, m.Reachable n
  resolved : ∀ n ∈ visited, m.Resolved n
  onward : ∀ n ∈ visited, ∀ t, m.Leads n t →
    t ∈ visited ∨ t ∈ stack ∨ wrapsTerminal m t = .ok true
  start : ∀ root, m.root = some root → root ∈ m.names → root ∈ visited ∨ root ∈ stack

/-- The next entity has been looked at. -/
theorem Walked.look {m m' : Model} {visited rest next : List Name} {name : Name}
    (h : Walked m visited (name :: rest)) (hclosed : m.Closed) (hlooks : m.Looks name m' next)
    (hgrows : m.Grows m') : Walked m' (name :: visited) (next ++ rest) where
  led := by
    intro n hn
    refine hgrows.parts.symm.reachable ?_
    rcases List.mem_append.1 hn with hnext | hrest
    · exact (h.led name List.mem_cons_self).leads (hlooks.leads hnext)
    · exact h.led n (List.mem_cons_of_mem _ hrest)
  resolved := by
    intro n hn
    rcases List.mem_cons.1 hn with rfl | hn
    · exact hlooks.resolved hclosed
    · exact (h.resolved n hn).grow hgrows
  onward := by
    intro n hn t ht
    have hold := hgrows.parts.leads ht
    rcases List.mem_cons.1 hn with rfl | hn
    · rcases hlooks.onward hold with hnext | hterminal
      · exact .inr (.inl (List.mem_append_left _ hnext))
      · exact .inr (.inr (hgrows.parts.symm.wrapsTerminal hterminal))
    · rcases h.onward n hn t hold with hvisited | hstack | hterminal
      · exact .inl (List.mem_cons_of_mem _ hvisited)
      · rcases List.mem_cons.1 hstack with rfl | hstack
        · exact .inl List.mem_cons_self
        · exact .inr (.inl (List.mem_append_right _ hstack))
      · exact .inr (.inr (hgrows.parts.symm.wrapsTerminal hterminal))
  start := by
    intro root hroot hin
    rw [hgrows.parts.root] at hroot
    rw [hgrows.parts.names_eq] at hin
    rcases h.start root hroot hin with hvisited | hstack
    · exact .inl (List.mem_cons_of_mem _ hvisited)
    · rcases List.mem_cons.1 hstack with rfl | hstack
      · exact .inl List.mem_cons_self
      · exact .inr (List.mem_append_right _ hstack)

/-- An entity that was looked at before, or is none of the model, is passed over. -/
theorem Walked.pass {m : Model} {visited rest : List Name} {name : Name} (hclosed : m.Closed)
    (h : Walked m visited (name :: rest)) (hname : name ∈ visited ∨ name ∉ m.names) :
    Walked m visited rest where
  led := fun n hn => h.led n (List.mem_cons_of_mem _ hn)
  resolved := h.resolved
  onward := by
    intro n hn t ht
    rcases h.onward n hn t ht with hvisited | hstack | hterminal
    · exact .inl hvisited
    · rcases List.mem_cons.1 hstack with rfl | hstack
      · exact .inl (hname.resolve_right fun hno => hno (ht.mem_names hclosed))
      · exact .inr (.inl hstack)
    · exact .inr (.inr hterminal)
  start := by
    intro root hroot hin
    rcases h.start root hroot hin with hvisited | hstack
    · exact .inl hvisited
    · rcases List.mem_cons.1 hstack with rfl | hstack
      · exact .inl (hname.resolve_right fun hno => hno hin)
      · exact .inr hstack

/-- The steps of the walk keep all but the links, and the order of these. -/
theorem carries_walked (m : Model) :
    Carries fun m' visited stack => (m'.Closed ∧ Keeps m m') ∧ Walked m' visited stack where
  look := by
    rintro m₁ m₂ name visited rest next ⟨⟨hclosed, hkept⟩, hwalked⟩ hlooks
    have hnext := hlooks.grows (hwalked.led name List.mem_cons_self) hkept.2
    exact ⟨⟨hclosed.of_sameParts hlooks.parts, hkept.trans hnext⟩,
      hwalked.look hclosed hlooks hnext.1⟩
  pass := fun ⟨hkept, hwalked⟩ hname => ⟨hkept, hwalked.pass hkept.1 hname⟩

/-- What the stage of the special cases leaves behind in a model that had no links before: there is
    a reason for every link, and everything was looked at that the root leads to, but for mere
    texts. -/
structure Surveyed (m : Model) : Prop where
  made : ∀ x y, m.Super x y → m.Reachable y ∧ m.Offers y x
  walked : ∃ done, Walked m done []

/-- The stage of the special cases is always carried through, and keeps all but the links, and the
    order of these. -/
theorem ensures_hierarchy (horderly : ∀ e ∈ d.model.entities, d.model.Orderly e)
    (hclosed : d.model.Closed) (hranked : d.model.Ranked) :
    Ensures hierarchy d E fun _ d' => Keeps d.model d'.model ∧
      ((∀ x y, ¬ d.model.Super x y) → Surveyed d'.model) := by
  have hstart : Walked d.model [] d.model.root.toList := by
    refine ⟨fun n hn => ⟨n, Option.mem_toList.1 hn, .refl⟩, fun n hn => ?_, fun n hn => ?_,
      fun root hroot _ => .inr (Option.mem_toList.2 hroot)⟩
    · exact absurd hn List.not_mem_nil
    · exact absurd hn List.not_mem_nil
  refine (ensures_hierarchy_carries (carries_walked d.model) horderly
    ⟨⟨hclosed, .refl _, hranked⟩, hstart⟩).mono (fun _ h => h)
    fun _ d' ⟨done, ⟨_, hkept⟩, hwalked⟩ => ⟨hkept, fun hno => ⟨fun x y hlink => ?_, done, hwalked⟩⟩
  obtain ⟨hreach, hoffers⟩ := (hkept.1.made x y hlink).resolve_left (hno x y)
  exact ⟨hkept.1.parts.symm.reachable hreach, hkept.1.parts.symm.offers hoffers⟩

end Build

end Ebnf
