import Ebnf.Model.ValueType
import Ebnf.Proofs.Values

/-!
# Types of properties

The type of every current property of a built model can be told. It is the type of what the leaves
read that fill the property, or else the entity itself, where one property stands for branches that
do not agree.

* `Typable.entityType_ok`, `Typable.treeType_ok`: every type can be told;
* `Site.Feeds`: the leaves that fill a property;
* `Site.Source.typed`: the type of a property follows from what these leaves read.
-/

namespace Ebnf

open Build (alternativeName getElem?_idsFrom mem_idsFrom)
open Relation (ReflTransGen)

namespace Model

variable {m : Model}

/-! ## 1. Types can be told -/

/-- The type of an entity that is not virtual. -/
theorem entityType_plain {name : Name} (hvirtual : m.isVirtual name = .ok false)
    (seen : List Name) : m.entityType seen name = .ok (.entity name) := by
  rw [entityType]
  split <;> simp_all

/-- The type of a virtual entity depends on whether the way has come back to it. -/
theorem entityType_virtual {name : Name} (hvirtual : m.isVirtual name = .ok true)
    (seen : List Name) : m.entityType seen name =
      if name ∈ seen then .ok (.entity name)
      else do
        match ← m.wrappedTree? name with
        | none => return .entity name
        | some t => return (← m.treeType (name :: seen) t).getD (.entity name) := by
  rw [entityType]
  split
  · next hfault => cases hvirtual.symm.trans hfault
  · next hplain => cases hvirtual.symm.trans hplain
  · rfl

/-- On a way that has come back to it a virtual entity contributes itself. -/
theorem entityType_seen {name : Name} {seen : List Name} (hvirtual : m.isVirtual name = .ok true)
    (hseen : name ∈ seen) : m.entityType seen name = .ok (.entity name) := by
  rw [entityType_virtual hvirtual, if_pos hseen]

/-- The type of a virtual entity on any other way is that of the tree it stands for. -/
theorem entityType_wrapped {name : Name} {seen : List Name} {t : ActionTree}
    {type : Option ValueType} (hvirtual : m.isVirtual name = .ok true) (hseen : name ∉ seen)
    (ht : m.wrappedTree? name = .ok (some t)) (htype : m.treeType (name :: seen) t = .ok type) :
    m.entityType seen name = .ok (type.getD (.entity name)) := by
  rw [entityType_virtual hvirtual, if_neg hseen]
  simp only [ht, htype, bind, Except.bind, pure, Except.pure]

/-- A virtual entity that stands for nothing contributes itself. -/
theorem entityType_bare {name : Name} {seen : List Name} (hvirtual : m.isVirtual name = .ok true)
    (hseen : name ∉ seen) (ht : m.wrappedTree? name = .ok none) :
    m.entityType seen name = .ok (.entity name) := by
  rw [entityType_virtual hvirtual, if_neg hseen]
  simp only [ht, bind, Except.bind, pure, Except.pure]

/-- The type that a tree adds to that of the tree it belongs to: a leaf that fills no property adds
    none. -/
def addedType (m : Model) (seen : List Name) (t : ActionTree) : Checked (Option ValueType) :=
  if t.action.isLeaf && t.action.property.isNone then .ok none else m.treeType seen t

theorem addedType_ok {seen : List Name} {t : ActionTree}
    (h : ∃ type, m.treeType seen t = .ok type) : ∃ type, m.addedType seen t = .ok type := by
  rw [addedType]
  split
  · exact ⟨none, rfl⟩
  · exact h

theorem branchTypes_cons {seen : List Name} {t : ActionTree} {ts : List ActionTree}
    {type : Option ValueType} {types : List (Option ValueType)}
    (ht : m.addedType seen t = .ok type) (hts : m.branchTypes seen ts = .ok types) :
    m.branchTypes seen (t :: ts) = .ok (type :: types) := by
  have hadded : m.branchTypes seen (t :: ts) = (do
      return (← m.addedType seen t) :: (← m.branchTypes seen ts)) := by
    rw [branchTypes, addedType]
    split <;> rfl
  rw [hadded, ht, hts]
  rfl

theorem soleType_cons (seen : List Name) (found : Option ValueType) (t : ActionTree)
    (ts : List ActionTree) : m.soleType seen found (t :: ts) = (do
      match ← m.addedType seen t, found with
      | none, _ => m.soleType seen found ts
      | some type, none => m.soleType seen (some type) ts
      | some _, some _ => return none) := by
  rw [soleType, addedType]
  split <;> rfl

/-- A tree that yields nothing is passed over. -/
theorem soleType_skip {seen : List Name} {found : Option ValueType} {t : ActionTree}
    (ht : m.addedType seen t = .ok none) (ts : List ActionTree) :
    m.soleType seen found (t :: ts) = m.soleType seen found ts := by
  rw [soleType_cons, ht]
  rfl

/-- The first tree that yields something is noted. -/
theorem soleType_first {seen : List Name} {type : ValueType} {t : ActionTree}
    (ht : m.addedType seen t = .ok (some type)) (ts : List ActionTree) :
    m.soleType seen none (t :: ts) = m.soleType seen (some type) ts := by
  rw [soleType_cons, ht]
  rfl

/-- After a second one there is no type. -/
theorem soleType_second {seen : List Name} {type other : ValueType} {t : ActionTree}
    (ht : m.addedType seen t = .ok (some type)) (ts : List ActionTree) :
    m.soleType seen (some other) (t :: ts) = .ok none := by
  rw [soleType_cons, ht]
  rfl

/-- The type of a reference that fills a property. -/
theorem addedType_reference {seen : List Name} {x : Action} {target : Name} {type : ValueType}
    (hkind : x.kind = .entity target) (hlink : x.property.isSome = true)
    (htype : m.entityType seen target = .ok type) (id : ActionId) (p : Option Property)
    (ts : List ActionTree) : m.addedType seen (.node id x p ts) = .ok (some type) := by
  rw [addedType, if_neg (by simp [ActionTree.action, Option.isSome_iff_ne_none.1 hlink]), treeType]
  simp only [hkind, htype]
  rfl

/-- The type of a choice that fills a property. -/
theorem treeType_choice {seen : List Name} {y : Action} {ids : List ActionId}
    {ts : List ActionTree} {types : List (Option ValueType)} (hkind : y.kind = .any ids)
    (htypes : m.branchTypes seen ts = .ok types) (id : ActionId) (p : Property) :
    m.treeType seen (.node id y (some p) ts) =
      .ok (some ((commonType? types).getD (.entity p.entity))) := by
  rw [treeType]
  simp only [hkind, htypes, bind, Except.bind, pure, Except.pure]
  cases commonType? types <;> rfl

/-- Whether an entity is virtual can be told, and what it stands for then. -/
structure Typable (m : Model) : Prop where
  isVirtual : ∀ name, ∃ b, m.isVirtual name = .ok b
  wrappedTree : ∀ name, m.isVirtual name = .ok true → ∃ t, m.wrappedTree? name = .ok t

mutual

theorem Typable.entityType_ok (h : m.Typable) (seen : List Name) (name : Name) :
    ∃ type, m.entityType seen name = .ok type := by
  obtain ⟨b, hvirtual⟩ := h.isVirtual name
  cases b with
  | false => exact ⟨_, entityType_plain hvirtual seen⟩
  | true =>
    by_cases hseen : name ∈ seen
    · exact ⟨_, entityType_seen hvirtual hseen⟩
    · obtain ⟨t, ht⟩ := h.wrappedTree name hvirtual
      cases t with
      | none => exact ⟨_, entityType_bare hvirtual hseen ht⟩
      | some t =>
        obtain ⟨type, htype⟩ := h.treeType_ok (name :: seen) t
        exact ⟨_, entityType_wrapped hvirtual hseen ht htype⟩
termination_by (unseen m.names seen, 0)
decreasing_by
  exact Prod.Lex.left _ _ (unseen_lt (fun n hn => List.mem_cons_of_mem _ hn)
    (mem_names_of_isVirtual hvirtual) hseen List.mem_cons_self)

theorem Typable.treeType_ok (h : m.Typable) (seen : List Name) (t : ActionTree) :
    ∃ type, m.treeType seen t = .ok type := by
  obtain ⟨id, a, p, children⟩ := t
  rw [treeType]
  cases hkind : a.kind with
  | literal text => exact ⟨_, rfl⟩
  | pattern source => exact ⟨_, rfl⟩
  | entity target =>
    obtain ⟨type, htype⟩ := h.entityType_ok seen target
    exact ⟨some type, by simp only [htype]; rfl⟩
  | all ids => exact h.soleType_ok seen none children
  | any ids =>
    obtain ⟨types, htypes⟩ := h.branchTypes_ok seen children
    exact ⟨_, by simp only [htypes]; rfl⟩
termination_by (unseen m.names seen, sizeOf t)

theorem Typable.soleType_ok (h : m.Typable) (seen : List Name) (found : Option ValueType)
    (ts : List ActionTree) : ∃ type, m.soleType seen found ts = .ok type := by
  cases ts with
  | nil => exact ⟨found, by rw [soleType]⟩
  | cons t ts =>
    obtain ⟨type, htype⟩ := addedType_ok (h.treeType_ok seen t)
    cases type with
    | none =>
      rw [soleType_skip htype]
      exact h.soleType_ok seen found ts
    | some type =>
      cases found with
      | none =>
        rw [soleType_first htype]
        exact h.soleType_ok seen (some type) ts
      | some other => exact ⟨none, soleType_second htype ts⟩
termination_by (unseen m.names seen, sizeOf ts)

theorem Typable.branchTypes_ok (h : m.Typable) (seen : List Name) (ts : List ActionTree) :
    ∃ types, m.branchTypes seen ts = .ok types := by
  cases ts with
  | nil => exact ⟨[], by rw [branchTypes]⟩
  | cons t ts =>
    obtain ⟨type, htype⟩ := addedType_ok (h.treeType_ok seen t)
    obtain ⟨types, htypes⟩ := h.branchTypes_ok seen ts
    exact ⟨_, branchTypes_cons htype htypes⟩
termination_by (unseen m.names seen, sizeOf ts)

end

/-! ## 2. Leaves and choices -/

end Model

/-- The type of what a leaf reads, on a way through the virtual entities in `seen`. -/
def Symbol.HasType (m : Model) (seen : List Name) : Symbol → ValueType → Prop
  | .literal _ true, type => type = .boolean
  | .literal _ false, type => type = .text
  | .pattern _, type => type = .text
  | .reference target, type => m.entityType seen target = .ok type

namespace Model

variable {m : Model}

/-- A leaf has the type of what it reads. -/
theorem Typable.leaf_type (h : m.Typable) {symbol : Symbol} {x : Action}
    (hkind : x.kind = symbol.kind) (hwitness : x.isWitness = symbol.isWitness) (seen : List Name)
    (id : ActionId) (p : Option Property) (ts : List ActionTree) :
    ∃ type, m.treeType seen (.node id x p ts) = .ok (some type) ∧ symbol.HasType m seen type := by
  rw [treeType, hkind, hwitness]
  cases symbol with
  | literal text witness =>
    cases witness with
    | true => exact ⟨.boolean, rfl, rfl⟩
    | false => exact ⟨.text, rfl, rfl⟩
  | pattern source => exact ⟨.text, rfl, rfl⟩
  | reference target =>
    obtain ⟨type, htype⟩ := h.entityType_ok seen target
    refine ⟨type, ?_, htype⟩
    show some <$> m.entityType seen target = _
    rw [htype]
    rfl

/-- What a branch adds is among what the branches add. -/
theorem Typable.mem_branchTypes (h : m.Typable) {seen : List Name} {t : ActionTree}
    {type : Option ValueType} (htype : m.addedType seen t = .ok type) {ts : List ActionTree} :
    ∀ {types : List (Option ValueType)}, t ∈ ts → m.branchTypes seen ts = .ok types →
      type ∈ types := by
  induction ts with
  | nil => exact fun ht _ => absurd ht List.not_mem_nil
  | cons first ts ih =>
    intro types ht hts
    have hfirst : ∃ type, m.addedType seen first = .ok type := by
      rw [addedType]
      split
      · exact ⟨none, rfl⟩
      · exact h.treeType_ok seen first
    obtain ⟨other, hother⟩ := hfirst
    obtain ⟨others, hothers⟩ := h.branchTypes_ok seen ts
    obtain rfl := Except.ok.inj ((branchTypes_cons hother hothers).symm.trans hts)
    rcases List.mem_cons.1 ht with rfl | ht
    · obtain rfl := Except.ok.inj (hother.symm.trans htype)
      exact List.mem_cons_self
    · exact List.mem_cons_of_mem _ (ih ht hothers)

/-- Branches that agree have the type on which they agree. -/
theorem eq_of_commonType? {types : List (Option ValueType)} {type : ValueType}
    (h : commonType? types = some type) {other : Option ValueType} (hmem : other ∈ types) :
    other = some type := by
  match types with
  | [] => exact absurd hmem List.not_mem_nil
  | none :: rest => contradiction
  | some first :: rest =>
    rw [commonType?] at h
    split at h
    · next hall =>
      obtain rfl := Option.some.inj h
      rcases List.mem_cons.1 hmem with rfl | hmem
      · rfl
      · exact of_decide_eq_true (List.all_eq_true.1 hall other hmem)
    · contradiction

/-- A choice that fills a property has the type on which its branches agree, or else that of the
    entity. -/
theorem Typable.choice_type (h : m.Typable) {y : Action} {ids : List ActionId}
    (hkind : y.kind = .any ids) (seen : List Name) (id : ActionId) (p : Property)
    (ts : List ActionTree) :
    ∃ type, m.treeType seen (.node id y (some p) ts) = .ok (some type) ∧
      (type = .entity p.entity ∨
        ∀ t ∈ ts, ∀ added, m.addedType seen t = .ok added → added = some type) := by
  obtain ⟨types, htypes⟩ := h.branchTypes_ok seen ts
  refine ⟨_, treeType_choice hkind htypes id p, ?_⟩
  cases hcommon : commonType? types with
  | none => exact .inl rfl
  | some type =>
    exact .inr fun t ht added hadded =>
      eq_of_commonType? hcommon (h.mem_branchTypes hadded ht htypes)

end Model

/-! ## 3. The trees of the parts of an entity -/

variable {m : Model} {e : Entity} {s : Site}

/-- The tree of an action holds the trees of its children. -/
theorem Model.exists_child_tree {id child : ActionId} {x : Action} {t : ActionTree}
    (ht : m.tree id = .ok t) (hx : m.actions[id.index]? = some x) (hchild : child ∈ x.children) :
    ∃ t' ∈ t.children, m.tree child = .ok t' := by
  rw [Model.tree, Model.action_eq_ok_iff.2 hx] at ht
  simp only [bind, Except.bind] at ht
  split at ht
  · contradiction
  · split at ht
    · contradiction
    · next ts hts =>
      obtain rfl := Except.ok.inj ht
      obtain ⟨t', hmem, ht'⟩ := exists_answer (Checked.forall₂_of_mapM hts) hchild
      split at ht'
      · exact ⟨t', hmem, ht'⟩
      · contradiction

/-- The tree of a leaf that fills a property. -/
theorem Plan.Fills.tree_eq {a b i : Nat} {id : PropertyId} {f : Plan.Filler} {x : Action}
    (h : Plan.Fills m e.name a b id f i x) :
    ∃ p, m.properties[id.index]? = some p ∧ p.source = ⟨i⟩ ∧
      m.tree ⟨i⟩ = .ok (.node ⟨i⟩ x (some p) []) := by
  obtain ⟨name, hproperty⟩ := h.property
  have hchildren : x.children = [] := by
    rw [Action.children, h.kind]
    cases f.symbol <;> rfl
  refine ⟨_, hproperty, rfl, ?_⟩
  rw [Model.tree, Model.action_eq_ok_iff.2 h.action]
  simp only [bind, Except.bind, hchildren, Plan.linkedProperty_ok id h.link hproperty,
    List.mapM_nil, pure, Except.pure]

/-- A leaf reads an entity if its symbol is a reference. -/
theorem Plan.Fills.target?_eq {a b i : Nat} {id : PropertyId} {f : Plan.Filler} {x : Action}
    (h : Plan.Fills m e.name a b id f i x) {target : Name} :
    x.target? = some target ↔ f.symbol = .reference target := by
  rw [Action.target?, h.kind]
  cases f.symbol <;> simp [Symbol.kind]

theorem Plan.Fills.sourceTarget?_eq {a b i : Nat} {id : PropertyId} {f : Plan.Filler} {x : Action}
    (h : Plan.Fills m e.name a b id f i x) : m.sourceTarget? id = .ok x.target? := by
  obtain ⟨name, hproperty⟩ := h.property
  simp only [Model.sourceTarget?, bind, Except.bind, Model.property_eq_ok_iff.2 hproperty,
    Model.action_eq_ok_iff.2 h.action, pure, Except.pure]

/-- The choice that a proxy is filled by is the topmost action of a plan, with some of the
    properties of the entity. -/
theorem Site.Hosts.exists_choice (h : s.Hosts m e) {choice : ActionId} {proxy : PropertyId}
    (hproxy : s.proxy = some (choice, proxy)) :
    ∃ mods parts a q parent, (Plan.node mods true parts).Stands m e.name s.link a q parent ∧
      a + Plan.sizes parts = choice.index ∧ s.property ≤ q ∧
      q + (Plan.slotsOf parts).length ≤ s.property + s.plan.width ∧
      m.tree choice = .ok (.node choice
        { (Plan.node mods true parts).top a q parent with property := some proxy }
        (some (s.proxyOf e.name choice)) (Plan.treesOf m s.link a q (some choice) parts)) := by
  have hchooses := h.chooses choice proxy hproxy
  obtain ⟨y, hy, hchoice, _⟩ := hchooses.action
  obtain ⟨p, a, q, parent, hstands, hsize, hfirst, hlast⟩ :=
    h.stands.sub hchooses.within.1 hchooses.within.2
  have htree := hstands.tree_eq h.link_property
  rw [show a + p.size - 1 = choice.index by omega] at htree
  cases p with
  | leaf mods symbol slot =>
    obtain rfl : a = choice.index := by
      have : a + 1 = choice.index + 1 := hsize
      omega
    obtain rfl := Option.some.inj (hstands.1.symm.trans hy)
    cases symbol <;> exact absurd hchoice Bool.false_ne_true
  | node mods isChoice parts =>
    have hindex : a + Plan.sizes parts = choice.index := by
      have : a + (Plan.sizes parts + 1) = choice.index + 1 := hsize
      omega
    have htop := hstands.2
    rw [hindex] at htop
    obtain rfl := Option.some.inj (htop.symm.trans hy)
    cases isChoice with
    | false => exact absurd hchoice Bool.false_ne_true
    | true =>
      have hlink : s.link choice = some proxy := by rw [link_proxy hproxy, if_pos rfl]
      rw [Plan.treeOf, hindex, hlink] at htree
      refine ⟨mods, parts, a, q, parent, hstands, hindex, hfirst, hlast, ?_⟩
      rw [← hchooses.property]
      exact htree

/-- The tree of the choice that a proxy is filled by holds the leaves that the proxy stands for. -/
theorem Site.Hosts.tree_choice (h : s.Hosts m e) {choice : ActionId} {proxy : PropertyId}
    (hproxy : s.proxy = some (choice, proxy)) :
    ∃ y ids ts, m.actions[choice.index]? = some y ∧ y.kind = .any ids ∧ y.isWitness = false ∧
      m.tree choice = .ok (.node choice y (some (s.proxyOf e.name choice)) ts) ∧
      ∀ (k : Nat) f i x, k < s.plan.width →
        Plan.Fills m e.name s.action s.fin ⟨s.property + k⟩ f i x →
        ∃ p, .node ⟨i⟩ x (some p) [] ∈ ts := by
  obtain ⟨mods, parts, a, q, parent, hstands, hindex, _, _, htree⟩ := h.exists_choice hproxy
  have htop := hstands.2
  rw [hindex, link_proxy hproxy, if_pos rfl] at htop
  refine ⟨_, _, _, htop, rfl, rfl, htree, fun k f i x hk hfills => ?_⟩
  have hparent := (h.lineage_branch hproxy hk hfills).1
  obtain ⟨y, hy, hmem⟩ := h.stands.child hfills.within.1 hfills.within.2 hfills.action
    hparent (h.chooses choice proxy hproxy).within.2 (fun id hid => by contradiction)
  obtain ⟨t, ht, htree'⟩ := Model.exists_child_tree htree hy hmem
  obtain ⟨p, _, _, hleaf⟩ := hfills.tree_eq
  obtain rfl := Except.ok.inj (hleaf.symm.trans htree')
  exact ⟨p, ht⟩

/-! ## 4. The type of a property -/

namespace Site

/-- A leaf that reads the symbol fills the property at a place. -/
def Feeds (s : Site) (place : Nat) (symbol : Symbol) : Prop :=
  ∃ k : Nat, s.plan.symbols[k]? = some symbol ∧ s.dest (s.property + k) = .field place

/-- What the property at a place is filled by: a leaf, or the leaves that are branches of a choice
    of references. -/
inductive Source (s : Site) (e : Entity) (place : Nat) (id : PropertyId) (p : Property) :
    ActionTree → Prop where
  | leaf {x : Action} {symbol : Symbol} (kind : x.kind = symbol.kind)
    (witness : x.isWitness = symbol.isWitness) (feeds : s.Feeds place symbol)
    (only : ∀ other, s.Feeds place other → other = symbol) :
    Source s e place id p (.node p.source x (some p) [])
  | choice {y : Action} {ids : List ActionId} {ts : List ActionTree} (kind : y.kind = .any ids)
    (witness : y.isWitness = false) (proxy : p.isProxy = true) (owner : p.entity = e.name)
    (alone : e.properties.ids = [id])
    (branches : ∀ symbol, s.Feeds place symbol → (∃ target, symbol = .reference target) ∧
      ∃ i x q, .node i x (some q) [] ∈ ts ∧ x.property.isSome = true ∧ x.kind = symbol.kind ∧
        x.isWitness = symbol.isWitness) :
    Source s e place id p (.node p.source y (some p) ts)

/-- The symbols of a plan are those of its leaves. -/
theorem exists_filler {k : Nat} {symbol : Symbol} (hk : s.plan.symbols[k]? = some symbol) :
    ∃ f, (s.plan.fillers false)[k]? = some f ∧ f.symbol = symbol ∧ k < s.plan.width := by
  rw [← s.plan.map_symbol_fillers false, List.getElem?_map] at hk
  obtain ⟨f, hf, hsymbol⟩ := Option.map_eq_some_iff.1 hk
  refine ⟨f, hf, hsymbol, ?_⟩
  rw [← Plan.length_fillers false]
  exact (List.getElem?_eq_some_iff.1 hf).1

theorem getElem?_symbols {k : Nat} {f : Plan.Filler} (hk : (s.plan.fillers false)[k]? = some f) :
    s.plan.symbols[k]? = some f.symbol := by
  rw [← s.plan.map_symbol_fillers false, List.getElem?_map, hk]
  rfl

/-- The property at a place is filled by its leaf or by its choice. -/
theorem Hosts.exists_source (h : s.Hosts m e) {place : Nat} {key : Name} {id : PropertyId}
    (hplace : e.properties[place]? = some (key, id)) :
    ∃ p t, m.property id = .ok p ∧ m.tree p.source = .ok t ∧ s.Source e place id p t := by
  cases hproxy : s.proxy with
  | none =>
    obtain ⟨hlt, rfl⟩ := h.place_plain hproxy hplace
    obtain ⟨f, i, x, hf, hfills⟩ := h.exists_slot hlt
    obtain ⟨p, hp, hsource, htree⟩ := hfills.tree_eq
    have hdest : ∀ k, s.dest (s.property + k) = .field k := fun k => by
      simp [dest, hproxy]
    refine ⟨p, _, Model.property_eq_ok_iff.2 hp, hsource ▸ htree, ?_⟩
    refine .leaf hfills.kind hfills.witness ⟨place, getElem?_symbols hf, hdest place⟩ ?_
    rintro other ⟨k, hk, hfield⟩
    obtain rfl := Destination.field.inj ((hdest k).symm.trans hfield)
    exact Option.some.inj (hk.symm.trans (getElem?_symbols hf))
  | some entry =>
    obtain ⟨choice, proxy⟩ := entry
    obtain ⟨rfl, rfl⟩ := h.place_proxy hproxy hplace
    have hchooses := h.chooses choice id hproxy
    obtain ⟨y, ids, ts, hy, hkind, hwitness, htree, hleaves⟩ := h.tree_choice hproxy
    refine ⟨_, _, Model.property_eq_ok_iff.2 hchooses.property, htree,
      .choice hkind hwitness rfl rfl ?_ ?_⟩
    · rw [h.current, ids_current_proxy hproxy]
    · rintro symbol ⟨k, hk, _⟩
      obtain ⟨f, hf, rfl, hlt⟩ := exists_filler hk
      obtain ⟨i, x, hfills⟩ := h.slot hf
      obtain ⟨p, x', hp, hx', _, htarget⟩ := hchooses.branches k hlt
      obtain ⟨name, hproperty⟩ := hfills.property
      obtain rfl := Option.some.inj (hp.symm.trans hproperty)
      obtain rfl := Option.some.inj (hx'.symm.trans hfills.action)
      obtain ⟨q, hq⟩ := hleaves k f i _ hlt hfills
      refine ⟨?_, _, _, q, hq, by rw [hfills.link]; rfl, hfills.kind, hfills.witness⟩
      obtain ⟨target, htarget⟩ := Option.isSome_iff_exists.1 htarget
      exact ⟨target, hfills.target?_eq.1 htarget⟩

/-- The type of the property at a place is that of all leaves that fill it, or else the entity,
    whose only property it is then. -/
theorem Source.typed {place : Nat} {id : PropertyId} {p : Property} {t : ActionTree}
    (h : s.Source e place id p t) (htypable : m.Typable) (seen : List Name) :
    ∃ type, m.treeType seen t = .ok (some type) ∧
      ((∀ symbol, s.Feeds place symbol → symbol.HasType m seen type) ∨
        (type = .entity e.name ∧ e.properties.ids = [id] ∧ p.isProxy = true ∧
          ∀ symbol, s.Feeds place symbol → ∃ target, symbol = .reference target)) := by
  cases h with
  | leaf kind witness feeds only =>
    obtain ⟨type, htype, hhas⟩ := htypable.leaf_type kind witness seen p.source (some p) []
    exact ⟨type, htype, .inl fun other hother => only other hother ▸ hhas⟩
  | choice kind witness proxy owner alone branches =>
    rename_i ts
    obtain ⟨type, htype, hfall | hall⟩ := htypable.choice_type kind seen p.source p ts
    · exact ⟨type, htype, .inr ⟨by rw [hfall, owner], alone, proxy, fun symbol hfeeds =>
        (branches symbol hfeeds).1⟩⟩
    · refine ⟨type, htype, .inl fun symbol hfeeds => ?_⟩
      obtain ⟨_, i, x, q, hmem, hlink, hkind, hwitness⟩ := branches symbol hfeeds
      obtain ⟨added, hadded, hhas⟩ := htypable.leaf_type hkind hwitness seen i (some q) []
      have hadds : m.addedType seen (.node i x (some q) []) = .ok (some added) := by
        rw [Model.addedType, if_neg, hadded]
        simp [ActionTree.action, Option.isSome_iff_ne_none.1 hlink]
      obtain rfl := Option.some.inj (hall _ hmem _ hadds)
      exact hhas

/-- If one of the leaves that fill a property is a reference, all of them are. -/
theorem Source.reference_of_reference {place : Nat} {id : PropertyId} {p : Property}
    {t : ActionTree} (h : s.Source e place id p t) {target : Name}
    (hfeeds : s.Feeds place (.reference target)) {symbol : Symbol}
    (hother : s.Feeds place symbol) : ∃ target', symbol = .reference target' := by
  cases h with
  | leaf kind witness feeds only =>
    exact ⟨target, (only _ hother).trans (only _ hfeeds).symm⟩
  | choice kind witness proxy owner alone branches => exact (branches symbol hother).1

/-- The entities that the leaves of a property read are those that the property refers to. -/
theorem Hosts.refers_iff (h : s.Hosts m e) {place : Nat} {key : Name} {id : PropertyId}
    (hplace : e.properties[place]? = some (key, id)) {target : Name} :
    m.Refers id target ↔ s.Feeds place (.reference target) := by
  cases hproxy : s.proxy with
  | none =>
    obtain ⟨hlt, rfl⟩ := h.place_plain hproxy hplace
    obtain ⟨f, i, x, hf, hfills⟩ := h.exists_slot hlt
    obtain ⟨name, hproperty⟩ := hfills.property
    rw [Model.refers_plain (Model.property_eq_ok_iff.2 hproperty) rfl
      (Model.action_eq_ok_iff.2 hfills.action), hfills.target?_eq]
    constructor
    · intro hsymbol
      exact ⟨place, hsymbol ▸ getElem?_symbols hf, by simp [dest, hproxy]⟩
    · rintro ⟨k, hk, hdest⟩
      simp only [dest, hproxy, Destination.field.injEq] at hdest
      obtain rfl : k = place := by omega
      exact Option.some.inj ((getElem?_symbols hf).symm.trans hk)
  | some entry =>
    obtain ⟨choice, proxy⟩ := entry
    obtain ⟨rfl, rfl⟩ := h.place_proxy hproxy hplace
    rw [Model.refers_proxy (Model.property_eq_ok_iff.2 (h.chooses choice id hproxy).property) rfl
      (h.lists (List.mem_of_getElem? hplace)).referencedEntities_ok]
    constructor
    · rintro ⟨sub, hsub, htarget⟩
      obtain ⟨k, hk, rfl⟩ := mem_idsFrom.1 hsub
      obtain ⟨f, i, x, hf, hfills⟩ := h.exists_slot hk
      rw [hfills.sourceTarget?_eq, Except.ok.injEq, hfills.target?_eq] at htarget
      exact ⟨k, htarget ▸ getElem?_symbols hf, by simp [dest, hproxy]⟩
    · rintro ⟨k, hk, _⟩
      obtain ⟨f, hf, hsymbol, hlt⟩ := exists_filler hk
      obtain ⟨i, x, hfills⟩ := h.slot hf
      refine ⟨_, mem_idsFrom.2 ⟨k, hlt, rfl⟩, ?_⟩
      rw [hfills.sourceTarget?_eq, hfills.target?_eq.2 hsymbol]

end Site

/-! ## 5. Built models -/

namespace Model

/-- A virtual entity has one property, which does not repeat. It is filled by a text, or the entity
    has subs. -/
theorem of_isVirtual {name : Name} (h : m.isVirtual name = .ok true) :
    ∃ e key id, m.entity? name = some e ∧ e.properties = [(key, id)] ∧
      m.isPlural id = .ok false ∧ ∃ p x, m.property id = .ok p ∧ m.action p.source = .ok x ∧
        (x.isValueTerminal = true ∨ e.subs ≠ []) := by
  rw [isVirtual] at h
  split at h
  · contradiction
  · split at h
    · contradiction
    · next e he =>
      split at h
      · next only honly =>
        rw [PropertyMap.ids, List.map_eq_singleton_iff] at honly
        obtain ⟨⟨key, id⟩, hproperties, rfl⟩ := honly
        cases hplural : m.isPlural id with
        | error fault => rw [hplural] at h; contradiction
        | ok plural =>
          cases plural with
          | true => rw [hplural] at h; cases h
          | false =>
            cases hp : m.property id with
            | error fault => simp [hplural, hp, bind, Except.bind] at h
            | ok p =>
              cases hx : m.action p.source with
              | error fault => simp [hplural, hp, hx, bind, Except.bind] at h
              | ok x =>
                simp only [hplural, hp, hx, bind, Except.bind, pure, Except.pure, Except.ok.injEq,
                  Bool.false_eq_true, if_false, Bool.or_eq_true, Bool.and_eq_true] at h
                refine ⟨e, key, id, he, hproperties, hplural, p, x, hp, hx, ?_⟩
                rcases h with ⟨hterminal, _⟩ | hsubs
                · exact .inl hterminal
                · exact .inr (by simpa using hsubs)
      · contradiction

/-- The tree that a virtual entity stands for is that of its property. -/
theorem wrappedTree?_eq {name key : Name} {e : Entity} {id : PropertyId} {p : Property}
    {t : ActionTree} (he : m.entity? name = some e) (hproperties : e.properties = [(key, id)])
    (hp : m.property id = .ok p) (ht : m.tree p.source = .ok t) :
    m.wrappedTree? name = .ok (some t) := by
  have hhead : e.properties.ids.head? = some id := by rw [hproperties]; rfl
  rw [wrappedTree?, he]
  simp only [Option.bind_some, hhead, bind, Except.bind, hp, ht, pure, Except.pure]

end Model

/-- What a virtual entity of a built model stands for. -/
structure Site.Wraps (s : Site) (m : Model) (name : Name) (e : Entity) (id : PropertyId)
    (p : Property) (t : ActionTree) : Prop where
  entity : m.entity? name = some e
  name_eq : e.name = name
  hosts : s.Hosts m e
  place : ∃ key, e.properties = [(key, id)]
  single : m.isPlural id = .ok false
  property : m.property id = .ok p
  tree : m.tree p.source = .ok t
  source : s.Source e 0 id p t
  wrapped : m.wrappedTree? name = .ok (some t)

variable {g : Grammar}

theorem Model.Sited.wraps [Unicode.Xid] {site : Name → Site} (h : m.Sited site m.names)
    {name : Name} (hvirtual : m.isVirtual name = .ok true) :
    ∃ e id p t, (site name).Wraps m name e id p t := by
  obtain ⟨e, key, id, he, hproperties, hplural, _⟩ := Model.of_isVirtual hvirtual
  have hmem := Model.mem_of_entity?_eq_some he
  have hname := Model.name_of_entity?_eq_some he
  have hosts := h.hosts_of_mem hmem
  rw [hname] at hosts
  have hplace : e.properties[0]? = some (key, id) := by rw [hproperties]; rfl
  obtain ⟨p, t, hp, ht, hsource⟩ := hosts.exists_source hplace
  exact ⟨e, id, p, t, he, hname, hosts, ⟨key, hproperties⟩, hplural, hp, ht, hsource,
    Model.wrappedTree?_eq he hproperties hp ht⟩

/-- Every type of a built model can be told. -/
theorem Build.Reached.typable [Unicode.Xid] (h : Build.Reached g m True) : m.Typable where
  isVirtual := h.isVirtual_ok
  wrappedTree := by
    intro name hvirtual
    obtain ⟨site, hsited⟩ := h.bodies trivial
    obtain ⟨e, id, p, t, hwraps⟩ := hsited.wraps hvirtual
    exact ⟨some t, hwraps.wrapped⟩

/-! ## 6. What the root leads to -/

/-- A mere text leads nowhere. -/
theorem Site.Hosts.not_leads (h : s.Hosts m e) {n t : Name} (he : m.entity? n = some e)
    (hwraps : Build.wrapsTerminal m n = .ok true) : ¬ m.Leads n t := by
  rintro ⟨e', id, he', hid, hrefers⟩
  obtain rfl := Option.some.inj (he.symm.trans he')
  obtain ⟨⟨key, id⟩, hmem, rfl⟩ := List.mem_map.1 hid
  obtain ⟨place, hplace⟩ := List.mem_iff_getElem?.1 hmem
  obtain ⟨k, hk, _⟩ := (h.refers_iff hplace).1 hrefers
  have hstands := h.stands
  have haction := h.action
  rw [Build.wrapsTerminal, he, Option.bind_some, haction] at hwraps
  cases hplan : s.plan with
  | leaf mods symbol slot =>
    rw [hplan] at hstands hwraps hk
    have hx : m.action ⟨s.action⟩ = .ok _ := Model.action_eq_ok_iff.2 hstands.1
    simp only [Plan.size, Nat.add_sub_cancel, bind, Except.bind, hx, pure, Except.pure] at hwraps
    cases slot with
    | none => exact absurd hk (by simp [Plan.symbols])
    | some name =>
      obtain ⟨_, rfl⟩ : k = 0 ∧ symbol = .reference t := by
        simpa [Plan.symbols, List.getElem?_singleton] using hk
      exact absurd (Except.ok.inj hwraps) Bool.false_ne_true
  | node mods choice parts =>
    rw [hplan] at hstands hwraps
    have hindex : s.action + (Plan.sizes parts + 1) - 1 = s.action + Plan.sizes parts := by omega
    rw [Plan.size, hindex] at hwraps
    have hx : m.action ⟨s.action + Plan.sizes parts⟩ = .ok _ := Model.action_eq_ok_iff.2 hstands.2
    simp only [bind, Except.bind, hx, pure, Except.pure] at hwraps
    cases choice <;> exact absurd (Except.ok.inj hwraps) Bool.false_ne_true

/-- Every entity that the root leads to was looked at, unless it leads nowhere. -/
theorem Build.Surveyed.resolved [Unicode.Xid] (h : Build.Surveyed m)
    (hreached : Build.Reached g m True) {n : Name} (hn : m.Reachable n) : m.Resolved n := by
  obtain ⟨site, hsited⟩ := hreached.bodies trivial
  have hleaf : ∀ n t, Build.wrapsTerminal m n = .ok true → ¬ m.Leads n t := by
    intro n t hwraps hleads
    obtain ⟨e, _, he, _⟩ := id hleads
    have hmem := Model.mem_of_entity?_eq_some he
    exact (hsited.hosts_of_mem hmem).not_leads he hwraps hleads
  obtain ⟨done, hwalked⟩ := h.walked
  obtain ⟨root, hroot, hway⟩ := hn
  have hin : n ∈ done ∨ ∀ t, ¬ m.Leads n t := by
    induction hway with
    | refl =>
      by_cases hname : root ∈ m.names
      · exact .inl ((hwalked.start root hroot hname).resolve_right List.not_mem_nil)
      · refine .inr fun t ⟨e, _, he, _⟩ => hname (Model.mem_names_iff.2 ⟨e, he⟩)
    | tail _ hleads ih =>
      rcases ih with hdone | hno
      · rcases hwalked.onward _ hdone _ hleads with hnext | hstack | hterminal
        · exact .inl hnext
        · exact absurd hstack List.not_mem_nil
        · exact .inr fun t => hleaf _ t hterminal
      · exact absurd hleads (hno _)
  rcases hin with hdone | hno
  · exact hwalked.resolved n hdone
  · exact fun t ht => absurd ht.hands.leads (hno t)

/-- The only property of every entity that the root leads to was looked at. -/
theorem Build.Surveyed.settled [Unicode.Xid] (h : Build.Surveyed m)
    (hreached : Build.Reached g m True) {n : Name} (hn : m.Reachable n) : m.Settled n := by
  refine (h.resolved hreached hn).settled fun id ⟨e, he, hids⟩ => ?_
  obtain ⟨⟨key, id⟩, hentry, rfl⟩ := List.mem_map.1
    (show id ∈ e.properties.ids from hids ▸ List.mem_singleton_self id)
  have hlists := (hreached.orderly e (Model.mem_of_entity?_eq_some he)).properties key id hentry
  exact hlists.isPlural_ok

end Ebnf
