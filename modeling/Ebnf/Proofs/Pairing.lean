import Ebnf.Proofs.Links
import Ebnf.Model.Tree

/-!
# Two models side by side

An entity may have its parts in different places in two models, and either model may have entities
that the other one has not. Where what belongs together in one model belongs together in the other
as well, requests about parts that correspond have answers that correspond.

* `Checked.Alike`: two requests have answers that correspond;
* `Pairing`, `Pairing.Pairs`: what corresponds to what in two models, and that it fits their links;
* `Pairs.isPlural`, `Pairs.isOptional`, `Pairs.referencedEntities`: attributes of properties;
* `Pairs.tree`: what is below an action.
-/

namespace Ebnf

/-! ## 1. Answers that correspond -/

/-- Two requests have answers that correspond. -/
def Checked.Alike {α β : Type} (R : α → β → Prop) (x : Checked α) (y : Checked β) : Prop :=
  ∃ a b, x = .ok a ∧ y = .ok b ∧ R a b

namespace Checked.Alike

variable {α β γ δ : Type} {R : α → β → Prop} {S : γ → δ → Prop} {x : Checked α} {y : Checked β}

theorem ok {a : α} {b : β} (h : R a b) : Alike R (.ok a) (.ok b) :=
  ⟨a, b, rfl, rfl, h⟩

/-- A request after another is answered alike where both are. -/
theorem bind {f : α → Checked γ} {g : β → Checked δ} (h : Alike R x y)
    (hnext : ∀ a b, R a b → Alike S (f a) (g b)) : Alike S (x >>= f) (y >>= g) := by
  obtain ⟨a, b, rfl, rfl, hab⟩ := h
  exact hnext a b hab

/-- The same request about things that correspond, one by one. -/
theorem mapM {f : α → Checked γ} {g : β → Checked δ} {xs : List α} {ys : List β}
    (h : List.Forall₂ R xs ys) (hnext : ∀ a b, R a b → Alike S (f a) (g b)) :
    Alike (List.Forall₂ S) (xs.mapM f) (ys.mapM g) := by
  induction h with
  | nil => exact ok .nil
  | cons hab _ ih =>
    rw [List.mapM_cons, List.mapM_cons]
    exact (hnext _ _ hab).bind fun _ _ hcd => ih.bind fun _ _ hrest => ok (.cons hcd hrest)

theorem map {f : α → γ} {g : β → δ} (h : Alike R x y) (hnext : ∀ a b, R a b → S (f a) (g b)) :
    Alike S (f <$> x) (g <$> y) := by
  obtain ⟨a, b, rfl, rfl, hab⟩ := h
  exact ok (hnext a b hab)

/-- Requests with equal answers are equal. -/
theorem eq {y : Checked α} (h : Alike Eq x y) : x = y := by
  obtain ⟨a, _, rfl, rfl, rfl⟩ := h
  rfl

theorem exists_ok {y : Checked α} (h : Alike Eq x y) : ∃ a, x = .ok a ∧ y = .ok a := by
  obtain ⟨a, _, rfl, rfl, rfl⟩ := h
  exact ⟨a, rfl, rfl⟩

end Checked.Alike

open Checked (Alike)

/-- What holds of some element holds of some element of the other list, if it holds of elements that
    correspond or of none. -/
theorem any_eq_of_forall₂ {α β : Type} {R : α → β → Prop} {f : α → Bool} {g : β → Bool}
    {xs : List α} {ys : List β} (h : List.Forall₂ R xs ys) (heq : ∀ a b, R a b → f a = g b) :
    xs.any f = ys.any g := by
  induction h with
  | nil => rfl
  | cons hab _ ih => rw [List.any_cons, List.any_cons, heq _ _ hab, ih]

/-- What corresponds one by one belongs to the lists. -/
theorem forall₂_mem {α β : Type} {R : α → β → Prop} {xs : List α} {ys : List β}
    (h : List.Forall₂ R xs ys) : List.Forall₂ (fun a b => R a b ∧ a ∈ xs ∧ b ∈ ys) xs ys := by
  rw [List.forall₂_iff_zip] at h ⊢
  exact ⟨h.1, fun hab => ⟨h.2 hab, List.of_mem_zip hab⟩⟩

theorem forall₂_of_getElem? {α β : Type} {R : α → β → Prop} {xs : List α} {ys : List β}
    (hlength : xs.length = ys.length)
    (h : ∀ (k : Nat) x y, xs[k]? = some x → ys[k]? = some y → R x y) : List.Forall₂ R xs ys :=
  List.forall₂_iff_get.2 ⟨hlength, fun k hk hk' =>
    h k _ _ (List.getElem?_eq_getElem hk) (List.getElem?_eq_getElem hk')⟩

theorem eq_none_of_rel {α β : Type} {R : α → β → Prop} {y : Option β} (h : Option.Rel R none y) :
    y = none := by
  cases h
  rfl

theorem exists_some_of_rel {α β : Type} {R : α → β → Prop} {a : α} {y : Option β}
    (h : Option.Rel R (some a) y) : ∃ b, y = some b ∧ R a b := by
  cases h with
  | some hab => exact ⟨_, rfl, hab⟩

/-! ## 2. What corresponds to what -/

/-- Actions and properties of two models that correspond, and the entities that count. -/
structure Pairing where
  /-- Actions that correspond. -/
  action : ActionId → ActionId → Prop
  /-- Properties that correspond. -/
  property : PropertyId → PropertyId → Prop
  /-- The entities that count. -/
  name : Name → Prop

namespace Pairing

variable {w : Pairing} {m m' : Model}

/-- Two actions read the same. -/
inductive Kinds (w : Pairing) : ActionKind → ActionKind → Prop where
  | literal (text : String) : Kinds w (.literal text) (.literal text)
  | pattern (source : String) : Kinds w (.pattern source) (.pattern source)
  | entity {target : Name} (h : w.name target) : Kinds w (.entity target) (.entity target)
  | all {ids ids' : List ActionId} (h : List.Forall₂ w.action ids ids') :
    Kinds w (.all ids) (.all ids')
  | any {ids ids' : List ActionId} (h : List.Forall₂ w.action ids ids') :
    Kinds w (.any ids) (.any ids')

/-- Two actions are the same, up to places and to the property that they fill. -/
structure Shapes (w : Pairing) (x x' : Action) : Prop where
  kind : w.Kinds x.kind x'.kind
  isOptional : x.isOptional = x'.isOptional
  isPlural : x.isPlural = x'.isPlural
  isWitness : x.isWitness = x'.isWitness
  parent : Option.Rel w.action x.parent x'.parent

/-- Two actions are the same, up to places. -/
structure Actions (w : Pairing) (x x' : Action) : Prop extends w.Shapes x x' where
  property : Option.Rel w.property x.property x'.property

/-- Two properties came about the same way. -/
inductive PropertyKinds (w : Pairing) : PropertyKind → PropertyKind → Prop where
  | plain : PropertyKinds w .plain .plain
  | proxy {ids ids' : List PropertyId} (h : List.Forall₂ w.property ids ids') :
    PropertyKinds w (.proxy ids) (.proxy ids')

/-- Two properties are the same, up to their places. -/
structure Properties (w : Pairing) (p p' : Property) : Prop where
  name : p.name = p'.name
  entity : p.entity = p'.entity
  source : w.action p.source p'.source
  kind : w.PropertyKinds p.kind p'.kind

/-- Two entities have the same parts, up to their places. -/
structure Entities (w : Pairing) (e e' : Entity) : Prop where
  action : Option.Rel w.action e.action e'.action
  properties : List.Forall₂ (fun entry entry' => entry.1 = entry'.1 ∧ w.property entry.2 entry'.2)
    e.properties e'.properties

/-- Two lists name the same entities, all of which count. -/
def Names (w : Pairing) (ts ts' : List Name) : Prop :=
  ts = ts' ∧ ∀ t ∈ ts, w.name t

/-- Two trees are the same, up to the places of their actions. -/
inductive Trees (w : Pairing) : ActionTree → ActionTree → Prop where
  | node {id id' : ActionId} {x x' : Action} {p p' : Option Property} {ts ts' : List ActionTree}
    (action : w.Actions x x') (property : Option.Rel w.Properties p p')
    (children : List.Forall₂ (Trees w) ts ts') : Trees w (.node id x p ts) (.node id' x' p' ts')

/-- The links of an action lead up to younger actions and down to older ones. -/
structure Nested (id : ActionId) (x : Action) : Prop where
  up : ∀ parent, x.parent = some parent → id.index < parent.index
  down : ∀ child ∈ x.children, child.index < id.index

/-- What corresponds is there in both models, and is the same up to its place. -/
structure Pairs (w : Pairing) (m m' : Model) : Prop where
  action : ∀ {id id'}, w.action id id' → ∃ x x', m.actions[id.index]? = some x ∧
    m'.actions[id'.index]? = some x' ∧ w.Actions x x' ∧ Nested id x ∧ Nested id' x'
  property : ∀ {id id'}, w.property id id' → ∃ p p', m.properties[id.index]? = some p ∧
    m'.properties[id'.index]? = some p' ∧ w.Properties p p'
  entity : ∀ {n}, w.name n → ∃ e e', m.entity? n = some e ∧ m'.entity? n = some e' ∧
    w.Entities e e'

/-! ## 3. Parts that correspond -/

theorem Names.nil : w.Names [] [] :=
  ⟨rfl, fun _ ht => absurd ht List.not_mem_nil⟩

theorem names_flatMap {α β : Type} {f : α → List Name} {g : β → List Name} {xs : List α}
    {ys : List β} (h : List.Forall₂ (fun a b => w.Names (f a) (g b)) xs ys) :
    w.Names (xs.flatMap f) (ys.flatMap g) := by
  induction h with
  | nil => exact .nil
  | cons hfirst _ ih =>
    rw [List.flatMap_cons, List.flatMap_cons, ← hfirst.1, ← ih.1]
    exact ⟨rfl, fun t ht => (List.mem_append.1 ht).elim (hfirst.2 t) (ih.2 t)⟩

theorem Kinds.children {x x' : Action} (h : w.Kinds x.kind x'.kind) :
    List.Forall₂ w.action x.children x'.children := by
  rw [Action.children, Action.children]
  generalize x.kind = kind, x'.kind = kind' at h ⊢
  cases h with
  | all h => exact h
  | any h => exact h
  | _ => exact .nil

namespace Shapes

variable {x x' : Action}

theorem isLeaf (h : w.Shapes x x') : x.isLeaf = x'.isLeaf := by
  have hkind := h.kind
  rw [Action.isLeaf, Action.isLeaf]
  generalize x.kind = kind, x'.kind = kind' at hkind ⊢
  cases hkind <;> rfl

theorem isChoice (h : w.Shapes x x') : x.isChoice = x'.isChoice := by
  have hkind := h.kind
  rw [Action.isChoice, Action.isChoice]
  generalize x.kind = kind, x'.kind = kind' at hkind ⊢
  cases hkind <;> rfl

theorem isValueTerminal (h : w.Shapes x x') : x.isValueTerminal = x'.isValueTerminal := by
  have hkind := h.kind
  rw [Action.isValueTerminal, Action.isValueTerminal, h.isWitness]
  generalize x.kind = kind, x'.kind = kind' at hkind ⊢
  cases hkind <;> rfl

theorem target?_eq (h : w.Shapes x x') : x.target? = x'.target? := by
  have hkind := h.kind
  rw [Action.target?, Action.target?]
  generalize x.kind = kind, x'.kind = kind' at hkind ⊢
  cases hkind <;> rfl

/-- The entity that both read counts. -/
theorem names_target? (h : w.Shapes x x') : w.Names x.target?.toList x'.target?.toList := by
  have hkind := h.kind
  rw [Action.target?, Action.target?]
  generalize x.kind = kind, x'.kind = kind' at hkind ⊢
  cases hkind with
  | entity h => exact ⟨rfl, fun t ht => List.mem_singleton.1 ht ▸ h⟩
  | _ => exact .nil

end Shapes

theorem Actions.isNone_property {x x' : Action} (h : w.Actions x x') :
    x.property.isNone = x'.property.isNone := by
  have hproperty := h.property
  generalize x.property = id?, x'.property = id?' at hproperty ⊢
  cases hproperty <;> rfl

theorem Trees.action {t t' : ActionTree} (h : w.Trees t t') : w.Actions t.action t'.action := by
  cases h with
  | node hxx _ _ => exact hxx

theorem PropertyKinds.isProxy {p p' : Property} (h : w.PropertyKinds p.kind p'.kind) :
    p.isProxy = p'.isProxy := by
  rw [Property.isProxy, Property.isProxy]
  generalize p.kind = kind, p'.kind = kind' at h ⊢
  cases h <;> rfl

theorem Entities.ids {e e' : Entity} (h : w.Entities e e') :
    List.Forall₂ w.property e.properties.ids e'.properties.ids := by
  rw [PropertyMap.ids, PropertyMap.ids, List.forall₂_map_left_iff, List.forall₂_map_right_iff]
  exact h.properties.imp fun _ _ hentry => hentry.2

/-! ## 4. Requests -/

namespace Pairs

/-- What corresponds does so whatever links there are between the entities. -/
theorem of_sameParts {n n' : Model} (h : w.Pairs m m') (hparts : m.SameParts n)
    (hparts' : m'.SameParts n') : w.Pairs n n' where
  action := by
    rw [hparts.actions, hparts'.actions]
    exact h.action
  property := by
    rw [hparts.properties, hparts'.properties]
    exact h.property
  entity := by
    intro name hname
    obtain ⟨e, e', he, he', hee⟩ := h.entity hname
    obtain ⟨o, ho, haction, hproperties⟩ := hparts.symm.exists_entity he
    obtain ⟨o', ho', haction', hproperties'⟩ := hparts'.symm.exists_entity he'
    refine ⟨o, o', ho, ho', ?_, ?_⟩
    · rw [← haction, ← haction']
      exact hee.action
    · rw [← hproperties, ← hproperties']
      exact hee.properties

variable (h : w.Pairs m m')

include h

theorem action_alike {id id' : ActionId} (hid : w.action id id') :
    Alike w.Actions (m.action id) (m'.action id') := by
  obtain ⟨x, x', hx, hx', hxx, _⟩ := h.action hid
  exact ⟨x, x', Model.action_eq_ok_iff.2 hx, Model.action_eq_ok_iff.2 hx', hxx⟩

theorem property_alike {id id' : PropertyId} (hid : w.property id id') :
    Alike w.Properties (m.property id) (m'.property id') := by
  obtain ⟨p, p', hp, hp', hpp⟩ := h.property hid
  exact ⟨p, p', Model.property_eq_ok_iff.2 hp, Model.property_eq_ok_iff.2 hp', hpp⟩

/-- The ways up from actions that correspond are the same. -/
theorem lineage {id id' : ActionId} (hid : w.action id id') :
    Alike (List.Forall₂ fun entry entry' => w.Actions entry.2 entry'.2) (m.lineage id)
      (m'.lineage id') := by
  obtain ⟨x, x', hx, hx', hxx, hnested, hnested'⟩ := h.action hid
  have hlt := (Array.getElem?_eq_some_iff.1 hx).1
  have hrel := hxx.parent
  cases hparent : x.parent with
  | none =>
    rw [hparent] at hrel
    rw [Model.lineage_top hx hparent, Model.lineage_top hx' (eq_none_of_rel hrel)]
    exact .ok (.cons hxx .nil)
  | some parent =>
    rw [hparent] at hrel
    obtain ⟨parent', hparent', hup⟩ := exists_some_of_rel hrel
    have hnext := hnested.up parent hparent
    rw [Model.lineage_parent hx hparent hnext,
      Model.lineage_parent hx' hparent' (hnested'.up parent' hparent')]
    exact (lineage hup).map fun _ _ hlines => .cons hxx hlines
termination_by m.actions.size - id.index

theorem isPlural {id id' : PropertyId} (hid : w.property id id') :
    Alike Eq (m.isPlural id) (m'.isPlural id') := by
  rw [Model.isPlural, Model.isPlural]
  refine (h.property_alike hid).bind fun p p' hp => (h.lineage hp.source).bind fun _ _ hlines => ?_
  exact .ok (any_eq_of_forall₂ hlines fun _ _ hxx => hxx.isPlural)

theorem isOptional {id id' : PropertyId} (hid : w.property id id') :
    Alike Eq (m.isOptional id) (m'.isOptional id') := by
  rw [Model.isOptional, Model.isOptional]
  refine (h.property_alike hid).bind fun p p' hp => (h.lineage hp.source).bind fun _ _ hlines => ?_
  cases hlines with
  | nil => exact .ok rfl
  | cons hxx hrest =>
    have hany := any_eq_of_forall₂ hrest fun entry entry' hyy =>
      show (entry.2.isOptional || entry.2.isChoice) = (entry'.2.isOptional || entry'.2.isChoice) by
        rw [hyy.isOptional, hyy.isChoice]
    exact .ok (by rw [hxx.isOptional, hany])

theorem sourceTarget? {id id' : PropertyId} (hid : w.property id id') :
    Alike (fun t t' => w.Names t.toList t'.toList) (m.sourceTarget? id) (m'.sourceTarget? id') := by
  rw [Model.sourceTarget?, Model.sourceTarget?]
  exact (h.property_alike hid).bind fun p p' hp => (h.action_alike hp.source).bind fun _ _ hxx =>
    .ok hxx.names_target?

/-- Properties that correspond refer to the same entities, all of which count. -/
theorem referencedEntities {id id' : PropertyId} (hid : w.property id id') :
    Alike w.Names (m.referencedEntities id) (m'.referencedEntities id') := by
  rw [Model.referencedEntities, Model.referencedEntities]
  refine (h.property_alike hid).bind fun p p' hp => ?_
  have hkind := hp.kind
  generalize p.kind = kind, p'.kind = kind' at hkind
  cases hkind with
  | plain => exact (h.action_alike hp.source).bind fun x x' hxx => .ok hxx.names_target?
  | proxy hids =>
    exact (Alike.mapM hids fun _ _ hsub => h.sourceTarget? hsub).bind fun _ _ hts =>
      .ok (names_flatMap hts)

/-- What several properties refer to is the same, and counts. -/
theorem allReferences {ids ids' : List PropertyId} (hids : List.Forall₂ w.property ids ids') :
    Alike w.Names (Build.allReferences m ids) (Build.allReferences m' ids') := by
  rw [Build.allReferences, Build.allReferences]
  refine (Alike.mapM hids fun _ _ hid => h.referencedEntities hid).map fun tss tss' htss => ?_
  rw [← List.flatMap_id, ← List.flatMap_id]
  exact names_flatMap htss

theorem linkedProperty {x x' : Action} (hxx : w.Actions x x') :
    Alike (Option.Rel w.Properties) (m.linkedProperty x) (m'.linkedProperty x') := by
  have hrel := hxx.property
  rw [Model.linkedProperty, Model.linkedProperty]
  generalize x.property = id?, x'.property = id?' at hrel ⊢
  cases hrel with
  | none => exact .ok .none
  | some hid => exact (h.property_alike hid).map fun _ _ hp => .some hp

/-- The trees below actions that correspond are the same. -/
theorem tree {id id' : ActionId} (hid : w.action id id') :
    Alike w.Trees (m.tree id) (m'.tree id') := by
  obtain ⟨x, x', hx, hx', hxx, hnested, hnested'⟩ := h.action hid
  have hchildren : Alike (List.Forall₂ w.Trees)
      (x.children.mapM fun child =>
        if child.index < id.index then m.tree child else .error (.noAction child.index))
      (x'.children.mapM fun child =>
        if child.index < id'.index then m'.tree child else .error (.noAction child.index)) := by
    refine .mapM (forall₂_mem hxx.kind.children) fun c c' hmem => ?_
    obtain ⟨hcc, hc, hc'⟩ := hmem
    rw [if_pos (hnested.down c hc), if_pos (hnested'.down c' hc')]
    exact tree hcc
  obtain ⟨p, p', hp, hp', hpp⟩ := h.linkedProperty hxx
  obtain ⟨ts, ts', hts, hts', htts⟩ := hchildren
  rw [Model.tree, Model.tree, Model.action_eq_ok_iff.2 hx, Model.action_eq_ok_iff.2 hx']
  simp only [bind, Except.bind, hp, hp', hts, hts']
  exact .ok (.node hxx hpp htts)
termination_by id.index
decreasing_by exact hnested.down c hc

end Pairs

end Pairing

end Ebnf
