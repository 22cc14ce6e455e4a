import Ebnf.Proofs.Course
import Ebnf.Proofs.Pairing

/-!
# Links in two models

The stage of the special cases looks at entities in the order in which references lead to them. In
two models with entities that correspond it takes the same steps, so these have the same links
afterwards, noted in the same order.

* `Pairing.Agrees`: parts correspond, and links are the same;
* `Pairing.Agrees.register?`: a new link in both models;
* `Pairing.Steps`: two steps that lead from models that agree to models that agree;
* `Pairing.steps_hierarchy`: the stage of the special cases is such a step.
-/

namespace Ebnf

open Relation (TransGen)
open Checked (Alike)

namespace Pairing

/-- What corresponds does, and the entities that count have the same links, none of which leads
    elsewhere. -/
structure Agrees (w : Pairing) (m m' : Model) : Prop where
  pairs : w.Pairs m m'
  root : m.root = m'.root
  start : ∀ root, m.root = some root → w.name root
  links : ∀ n, w.name n → ∀ e e', m.entity? n = some e → m'.entity? n = some e' →
    e.supers = e'.supers ∧ e.subs = e'.subs
  closed : ∀ x y, w.name x → m.Super x y → w.name y

variable {w : Pairing} {m m' : Model}

/-! ## 1. The order of the entities -/

namespace Agrees

variable (h : w.Agrees m m')

include h

theorem super_iff {x y : Name} (hx : w.name x) : m.Super x y ↔ m'.Super x y := by
  obtain ⟨e, e', he, he', _⟩ := h.pairs.entity hx
  have hsupers := (h.links x hx e e' he he').1
  constructor
  · rintro ⟨o, ho, hy⟩
    obtain rfl := Option.some.inj (he.symm.trans ho)
    exact ⟨e', he', hsupers ▸ hy⟩
  · rintro ⟨o, ho, hy⟩
    obtain rfl := Option.some.inj (he'.symm.trans ho)
    exact ⟨e, he, hsupers ▸ hy⟩

/-- The ways up from an entity that counts are the same. -/
theorem transGen_iff {x y : Name} (hx : w.name x) :
    TransGen m.Super x y ↔ TransGen m'.Super x y := by
  constructor
  · intro hway
    induction hway using TransGen.head_induction_on with
    | single hlink => exact .single ((h.super_iff hx).1 hlink)
    | head hlink _ ih =>
      exact .head ((h.super_iff hx).1 hlink) (ih (h.closed _ _ hx hlink))
  · intro hway
    induction hway using TransGen.head_induction_on with
    | single hlink => exact .single ((h.super_iff hx).2 hlink)
    | head hlink _ ih =>
      have hold := (h.super_iff hx).2 hlink
      exact .head hold (ih (h.closed _ _ hx hold))

theorem isA_eq {x : Name} (hx : w.name x) (y : Name) : m.isA x y = m'.isA x y := by
  rw [Bool.eq_iff_iff, Model.isA_iff, Model.isA_iff]
  exact h.transGen_iff hx

theorem mem_names {n : Name} (hn : w.name n) : n ∈ m.names ∧ n ∈ m'.names := by
  obtain ⟨e, e', he, he', _⟩ := h.pairs.entity hn
  exact ⟨Model.mem_names_iff.2 ⟨e, he⟩, Model.mem_names_iff.2 ⟨e', he'⟩⟩

/-- A new link keeps the models in agreement. -/
theorem linked {parent child : Name} (hparent : w.name parent) :
    w.Agrees { m with entities := m.entities.map (Model.linked parent child) }
      { m' with entities := m'.entities.map (Model.linked parent child) } where
  pairs := h.pairs.of_sameParts (m.sameParts_linked parent child) (m'.sameParts_linked parent child)
  root := h.root
  start := h.start
  links := by
    intro n hn e e' he he'
    rw [Model.entity?_linked] at he he'
    obtain ⟨o, ho, rfl⟩ := Option.map_eq_some_iff.1 he
    obtain ⟨o', ho', rfl⟩ := Option.map_eq_some_iff.1 he'
    obtain ⟨hsupers, hsubs⟩ := h.links n hn o o' ho ho'
    have hname : o.name = o'.name :=
      (Model.name_of_entity?_eq_some ho).trans (Model.name_of_entity?_eq_some ho').symm
    simp only [Model.linked, hname, hsupers, hsubs, and_self]
  closed := by
    intro x y hx hlink
    rcases Model.super_linked hlink with hold | ⟨rfl, rfl⟩
    · exact h.closed x y hx hold
    · exact hparent

/-- A link can be made in both models, or in neither. -/
theorem register? {parent child : Name} (hparent : w.name parent) (hchild : w.name child) :
    Option.Rel w.Agrees (m.register? parent child) (m'.register? parent child) := by
  have hin := h.mem_names hparent
  have hin' := h.mem_names hchild
  rw [Model.register?, Model.register?, ← h.isA_eq hchild, ← h.isA_eq hparent,
    Model.addSuper_addSub, Model.addSuper_addSub]
  simp only [hin.1, hin.2, hin'.1, hin'.2, not_true_eq_false, or_false]
  split
  · exact .none
  · exact .some (h.linked hparent)

end Agrees

/-! ## 2. Steps side by side -/

/-- Two steps lead from models that agree to models that agree, with results that correspond. -/
def Steps (w : Pairing) {α β : Type} (R : α → β → Prop) (step : Build α) (step' : Build β) : Prop :=
  ∀ d d', w.Agrees d.model d'.model → ∃ a b u u', step d = .ok a u ∧ step' d' = .ok b u' ∧
    R a b ∧ w.Agrees u.model u'.model

section

variable {α β γ δ : Type} {R : α → β → Prop} {S : γ → δ → Prop}

theorem Steps.pure {a : α} {b : β} (h : R a b) : w.Steps R (pure a) (pure b) :=
  fun d d' hd => ⟨a, b, d, d', rfl, rfl, h, hd⟩

theorem Steps.bind {step : Build α} {step' : Build β} {next : α → Build γ} {next' : β → Build δ}
    (h : w.Steps R step step') (hnext : ∀ a b, R a b → w.Steps S (next a) (next' b)) :
    w.Steps S (step >>= next) (step' >>= next') := by
  intro d d' hd
  obtain ⟨a, b, u, u', hstep, hstep', hab, hu⟩ := h d d' hd
  obtain ⟨c, c', v, v', hrest, hrest', hcc, hv⟩ := hnext a b hab u u' hu
  exact ⟨c, c', v, v', bind_eq_ok.2 ⟨a, u, hstep, hrest⟩,
    bind_eq_ok.2 ⟨b, u', hstep', hrest'⟩, hcc, hv⟩

theorem steps_model : w.Steps w.Agrees Build.model Build.model :=
  fun d d' hd => ⟨d.model, d'.model, d, d', rfl, rfl, hd, hd⟩

theorem steps_setModel (h : w.Agrees m m') :
    w.Steps (fun _ _ => True) (Build.setModel m) (Build.setModel m') :=
  fun d d' _ => ⟨(), (), { d with model := m }, { d' with model := m' }, rfl, rfl, trivial, h⟩

theorem steps_tell (e e' : Event) : w.Steps (fun _ _ => True) (Build.tell e) (Build.tell e') :=
  fun _ _ hd => ⟨(), (), _, _, rfl, rfl, trivial, hd⟩

theorem steps_check {x : Checked α} {y : Checked β} (h : Alike R x y) :
    w.Steps R (Build.check x) (Build.check y) := by
  obtain ⟨a, b, rfl, rfl, hab⟩ := h
  exact .pure hab

theorem steps_forM {f f' : α → Build Unit} {xs : List α}
    (h : ∀ x ∈ xs, w.Steps (fun _ _ => True) (f x) (f' x)) :
    w.Steps (fun _ _ => True) (xs.forM f) (xs.forM f') := by
  induction xs with
  | nil => exact .pure trivial
  | cons x xs ih =>
    show w.Steps _ (f x >>= fun _ => xs.forM f) (f' x >>= fun _ => xs.forM f')
    exact (h x List.mem_cons_self).bind fun _ _ _ =>
      ih fun y hy => h y (List.mem_cons_of_mem _ hy)

end

/-! ## 3. The stage of the special cases -/

theorem steps_registerSub {parent child : Name} (hparent : w.name parent) (hchild : w.name child) :
    w.Steps (fun _ _ => True) (Build.registerSub parent child)
      (Build.registerSub parent child) := by
  refine steps_model.bind fun m m' hm => ?_
  have hrel := hm.register? hparent hchild
  generalize m.register? parent child = n?, m'.register? parent child = n?' at hrel ⊢
  cases hrel with
  | none => exact steps_tell _ _
  | some hn => exact (steps_setModel hn).bind fun _ _ _ => steps_tell _ _

theorem wrapsTerminal (h : w.Pairs m m') {n : Name} (hn : w.name n) :
    Alike Eq (Build.wrapsTerminal m n) (Build.wrapsTerminal m' n) := by
  obtain ⟨e, e', he, he', hee⟩ := h.entity hn
  have hrel := hee.action
  rw [Build.wrapsTerminal, Build.wrapsTerminal, he, he', Option.bind_some, Option.bind_some]
  generalize e.action = id?, e'.action = id?' at hrel ⊢
  cases hrel with
  | none => exact .ok rfl
  | some hid => exact (h.action_alike hid).bind fun _ _ hxx => .ok hxx.isValueTerminal

/-- Entities that correspond are looked at alike. -/
theorem steps_discover {e e' : Entity} (hee : w.Entities e e') (hname : e.name = e'.name)
    (hsupers : e.supers = e'.supers) (hcounts : w.name e.name) :
    w.Steps w.Names (Build.discover e) (Build.discover e') := by
  have hids := hee.ids
  rw [Build.discover, Build.discover, ← hname, ← hsupers]
  refine steps_model.bind fun m m' hm => ?_
  have hm := hm.pairs
  generalize e.properties.ids = ids, e'.properties.ids = ids' at hids ⊢
  rcases hids with _ | ⟨honly, _ | ⟨hsecond, hrest⟩⟩
  · exact steps_check (hm.allReferences .nil)
  · refine (steps_check (hm.isPlural honly)).bind fun plural plural' hplural => ?_
    obtain rfl := hplural
    split
    · exact steps_check (hm.allReferences (.cons honly .nil))
    refine (steps_check (hm.property_alike honly)).bind fun p p' hp => ?_
    rw [← hp.kind.isProxy]
    split
    · refine (steps_check (hm.referencedEntities honly)).bind fun targets targets' htargets => ?_
      obtain ⟨rfl, htargets⟩ := htargets
      refine (steps_forM fun t ht => steps_registerSub hcounts (htargets t ht)).bind fun _ _ _ => ?_
      exact .pure ⟨rfl, htargets⟩
    · refine (steps_check (hm.action_alike hp.source)).bind fun x x' hxx => ?_
      have hnames := hxx.names_target?
      rw [← hxx.target?_eq]
      cases htarget : x.target? with
      | none => exact .pure .nil
      | some target =>
        rw [htarget] at hnames
        have htarget := hnames.2 target (List.mem_singleton_self target)
        refine (steps_check (wrapsTerminal hm htarget)).bind fun wraps wraps' hwraps => ?_
        obtain rfl := hwraps
        split
        · exact .pure .nil
        · refine (steps_registerSub hcounts htarget).bind fun _ _ _ => ?_
          exact .pure ⟨rfl, fun t ht => List.mem_singleton.1 ht ▸ htarget⟩
  · exact steps_check (hm.allReferences (.cons honly (.cons hsecond hrest)))

theorem steps_walk {names names' : List Name}
    (hnames : ∀ n, w.name n → n ∈ names ∧ n ∈ names') (visited stack : List Name) :
    (∀ n ∈ stack, w.name n) →
      w.Steps (fun _ _ => True) (Build.walk names visited stack)
        (Build.walk names' visited stack) := by
  induction visited, stack using Build.walk.induct names with
  | case1 visited =>
    intro _
    rw [Build.walk, Build.walk]
    exact .pure trivial
  | case2 visited name rest hnew ihrest ihnext =>
    intro hstack
    have hname := hstack name List.mem_cons_self
    have hrest := fun n hn => hstack n (List.mem_cons_of_mem _ hn)
    rw [Build.walk, Build.walk, dif_pos hnew, dif_pos ⟨hnew.1, (hnames name hname).2⟩]
    refine steps_model.bind fun m m' hm => ?_
    obtain ⟨e, e', he, he', hee⟩ := hm.pairs.entity hname
    have hlinks := hm.links name hname e e' he he'
    have hename := Model.name_of_entity?_eq_some he
    rw [he, he']
    refine (steps_discover hee (hename.trans (Model.name_of_entity?_eq_some he').symm) hlinks.1
      (hename ▸ hname)).bind fun next next' hnext => ?_
    obtain ⟨rfl, hnext⟩ := hnext
    exact ihnext next fun n hn => (List.mem_append.1 hn).elim (hnext n) (hrest n)
  | case3 visited name rest hold ihrest =>
    intro hstack
    have hname := hnames name (hstack name List.mem_cons_self)
    have hold' : ¬ (name ∉ visited ∧ name ∈ names') := fun hnew => hold ⟨hnew.1, hname.1⟩
    rw [Build.walk, Build.walk, dif_neg hold, dif_neg hold']
    exact ihrest fun n hn => hstack n (List.mem_cons_of_mem _ hn)

/-- The stage of the special cases makes the same links in both models. -/
theorem steps_hierarchy : w.Steps (fun _ _ => True) Build.hierarchy Build.hierarchy := by
  rw [Build.hierarchy]
  refine steps_model.bind fun m m' hm => ?_
  rw [← hm.root]
  cases hroot : m.root with
  | none => exact .pure trivial
  | some root =>
    exact steps_walk (fun n => hm.mem_names) [] [root] fun n hn =>
      List.mem_singleton.1 hn ▸ hm.start root hroot

end Pairing

end Ebnf
