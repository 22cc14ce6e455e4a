import Ebnf.Proofs.Layout

/-!
# Plans in the arenas of a model

What it means that the actions and properties of a plan stand in the arenas, told along the plan
rather than along the arenas. Properties may have been given other names since, and an action with
children may have been linked to a property of its own; nothing else may differ.

* `Plan.Stands`: a plan stands in the arenas from given places on;
* `stands_of_code`: it does where its code and its properties are;
* `Plan.Stands.transfer`: it still does after a change that respects it;
* `Plan.Stands.parent`, `Plan.Stands.slot`: what there is to know of the actions of a plan.
-/

namespace Ebnf

namespace Model

variable {m : Model}

/-! ## 1. The way up, link by link -/

/-- The way up from an action, without the bound that it ends by. -/
theorem lineage_eq (m : Model) (id : ActionId) : m.lineage id =
    match m.actions[id.index]? with
    | none => .error (.noAction id.index)
    | some a =>
      match a.parent with
      | none => .ok [(id, a)]
      | some parent =>
        if id.index < parent.index then (m.lineage parent).map ((id, a) :: ·)
        else .ok [(id, a)] := by
  rw [lineage]
  split
  · next hnone => simp only [hnone]
  · next a ha =>
    cases hparent : a.parent with
    | none => simp only [ha, hparent]
    | some parent => simp only [ha, hparent]

/-- The way up from an action without a parent ends there. -/
theorem lineage_top {id : ActionId} {x : Action} (hx : m.actions[id.index]? = some x)
    (hparent : x.parent = none) : m.lineage id = .ok [(id, x)] := by
  rw [lineage_eq, hx]
  simp only [hparent]

/-- The way up from any other action goes on with the way up from its parent. -/
theorem lineage_parent {id parent : ActionId} {x : Action} (hx : m.actions[id.index]? = some x)
    (hparent : x.parent = some parent) (hlt : id.index < parent.index) :
    m.lineage id = (m.lineage parent).map ((id, x) :: ·) := by
  rw [lineage_eq, hx]
  simp only [hparent, if_pos hlt]

end Model

namespace Plan

variable {m m' : Model} {entity : Name} {link link' : ActionId → Option PropertyId}

/-! ## 2. Plans that stand in a model -/

mutual

/-- The actions of a plan stand from the place `a` on, and its properties from the place `q` on.
    `link` tells which actions with children have a property. -/
def Stands (m : Model) (entity : Name) (link : ActionId → Option PropertyId) (a q : Nat)
    (parent : Option ActionId) : Plan → Prop
  | leaf mods symbol slot =>
    m.actions[a]? = some ((leaf mods symbol slot).top a q parent) ∧
      (slot.isSome → ∃ name,
        m.properties[q]? = some { name := name, entity := entity, source := ⟨a⟩ })
  | node mods choice parts =>
    StandInRow m entity link a q (some ⟨a + sizes parts⟩) parts ∧
      m.actions[a + sizes parts]? = some { (node mods choice parts).top a q parent with
        property := link ⟨a + sizes parts⟩ }

/-- The same for several plans in a row, under one parent. -/
def StandInRow (m : Model) (entity : Name) (link : ActionId → Option PropertyId) (a q : Nat)
    (parent : Option ActionId) : List Plan → Prop
  | [] => True
  | p :: ps =>
    p.Stands m entity link a q parent ∧
      StandInRow m entity link (a + p.size) (q + p.width) parent ps

end

/-! ## 3. Where the code is -/

/-- A list stands in an array from a place on. -/
def Found {α : Type} (xs : List α) (arena : Array α) (i : Nat) : Prop :=
  ∀ k x, xs[k]? = some x → arena[i + k]? = some x

theorem found_append {α : Type} {xs ys : List α} {arena : Array α} {i : Nat} :
    Found (xs ++ ys) arena i ↔ Found xs arena i ∧ Found ys arena (i + xs.length) := by
  constructor
  · intro h
    refine ⟨fun k x hx => h k x ?_, fun k y hy => ?_⟩
    · rw [List.getElem?_append_left (List.getElem?_eq_some_iff.1 hx).1]
      exact hx
    · rw [Nat.add_assoc]
      refine h _ y ?_
      rw [List.getElem?_append_right (Nat.le_add_right ..), Nat.add_sub_cancel_left]
      exact hy
  · rintro ⟨hxs, hys⟩ k z hz
    by_cases hk : k < xs.length
    · exact hxs k z (by rwa [List.getElem?_append_left hk] at hz)
    · rw [List.getElem?_append_right (Nat.le_of_not_lt hk)] at hz
      have hplace := hys _ z hz
      rw [Nat.add_assoc, Nat.add_sub_cancel' (Nat.le_of_not_lt hk)] at hplace
      exact hplace

theorem found_singleton {α : Type} {x : α} {arena : Array α} {i : Nat} :
    Found [x] arena i ↔ arena[i]? = some x := by
  constructor
  · exact fun h => h 0 x rfl
  · intro h k y hy
    cases k with
    | zero => exact Option.some.inj hy ▸ h
    | succ k => exact absurd hy (by simp)

/-- What an array ends with stands there. -/
theorem found_of_toList_eq {α : Type} {xs : List α} {arena arena' : Array α}
    (h : arena'.toList = arena.toList ++ xs) : Found xs arena' arena.size := by
  intro k x hx
  rw [← Array.getElem?_toList, h, List.getElem?_append_right (by simp), Array.length_toList,
    Nat.add_sub_cancel_left]
  exact hx

mutual

/-- A plan stands where its code and its properties are. -/
theorem stands_of_code {a q : Nat} {parent : Option ActionId} :
    ∀ {p : Plan}, Found (p.code a q parent) m.actions a → Found (p.props entity a) m.properties q →
      p.Stands m entity (fun _ => none) a q parent
  | leaf mods symbol slot, hcode, hprops => by
    refine ⟨found_singleton.1 hcode, fun hslot => ?_⟩
    obtain ⟨name, rfl⟩ := Option.isSome_iff_exists.1 hslot
    exact ⟨name, found_singleton.1 hprops⟩
  | node mods choice parts, hcode, hprops => by
    obtain ⟨hbeneath, htop⟩ := found_append.1 hcode
    rw [beneath, length_layOut] at htop
    exact ⟨standInRow_of_layOut hbeneath hprops, found_singleton.1 htop⟩

theorem standInRow_of_layOut {a q : Nat} {parent : Option ActionId} :
    ∀ {ps : List Plan}, Found (layOut a q parent ps) m.actions a →
      Found (propsOf entity a ps) m.properties q →
      StandInRow m entity (fun _ => none) a q parent ps
  | [], _, _ => trivial
  | p :: ps, hcode, hprops => by
    have hsplit : layOut a q parent (p :: ps) =
        p.code a q parent ++ layOut (a + p.size) (q + p.width) parent ps := by
      rw [layOut, code, List.append_assoc, List.singleton_append]
    rw [hsplit, found_append, length_code] at hcode
    rw [propsOf, found_append, length_props] at hprops
    exact ⟨stands_of_code hcode.1 hprops.1, standInRow_of_layOut hcode.2 hprops.2⟩

end

/-! ## 4. Changes that respect a plan -/

/-- Actions from the place `a` up to the place `b` are kept, except for the property of those with
    children. -/
def KeepsActions (m m' : Model) (link link' : ActionId → Option PropertyId) (a b : Nat) : Prop :=
  ∀ i x, a ≤ i → i < b → m.actions[i]? = some x → (x.isLeaf = false → x.property = link ⟨i⟩) →
    m'.actions[i]? = some (if x.isLeaf then x else { x with property := link' ⟨i⟩ })

/-- Properties from the place `q` up to the place `b` are kept, except for their names. -/
def KeepsProperties (m m' : Model) (q b : Nat) : Prop :=
  ∀ k x, q ≤ k → k < b → m.properties[k]? = some x →
    ∃ name, m'.properties[k]? = some { x with name := name }

theorem KeepsActions.mono {a b a' b' : Nat} (h : KeepsActions m m' link link' a b) (ha : a ≤ a')
    (hb : b' ≤ b) : KeepsActions m m' link link' a' b' :=
  fun i x hi hi' => h i x (Nat.le_trans ha hi) (Nat.lt_of_lt_of_le hi' hb)

theorem KeepsProperties.mono {q b q' b' : Nat} (h : KeepsProperties m m' q b) (hq : q ≤ q')
    (hb : b' ≤ b) : KeepsProperties m m' q' b' :=
  fun k x hk hk' => h k x (Nat.le_trans hq hk) (Nat.lt_of_lt_of_le hk' hb)

theorem isLeaf_top_leaf (mods : Modifiers) (symbol : Symbol) (slot : Option Name) (a q : Nat)
    (parent : Option ActionId) : ((leaf mods symbol slot).top a q parent).isLeaf = true := by
  cases symbol <;> rfl

theorem isLeaf_top_node (mods : Modifiers) (choice : Bool) (parts : List Plan) (a q : Nat)
    (parent : Option ActionId) : ((node mods choice parts).top a q parent).isLeaf = false := by
  cases choice <;> rfl

mutual

/-- A plan stands after a change that keeps its actions and its properties. -/
theorem Stands.transfer {a q : Nat} {parent : Option ActionId} :
    ∀ {p : Plan}, p.Stands m entity link a q parent →
      KeepsActions m m' link link' a (a + p.size) → KeepsProperties m m' q (q + p.width) →
      p.Stands m' entity link' a q parent
  | leaf mods symbol slot, ⟨htop, hslot⟩, hactions, hproperties => by
    have hleaf := isLeaf_top_leaf mods symbol slot a q parent
    refine ⟨?_, fun hsome => ?_⟩
    · have htop' := hactions a _ (Nat.le_refl _) (Nat.lt_succ_self a) htop fun h => by
        rw [hleaf] at h
        contradiction
      rwa [if_pos hleaf] at htop'
    · obtain ⟨name, hname⟩ := hslot hsome
      obtain ⟨name', hname'⟩ := hproperties q _ (Nat.le_refl _) (by
        obtain ⟨n, rfl⟩ := Option.isSome_iff_exists.1 hsome
        exact Nat.lt_succ_self q) hname
      exact ⟨name', hname'⟩
  | node mods choice parts, ⟨hparts, htop⟩, hactions, hproperties => by
    have hnode : Action.isLeaf { (node mods choice parts).top a q parent with
        property := link ⟨a + sizes parts⟩ } = false :=
      isLeaf_top_node mods choice parts a q parent
    refine ⟨?_, ?_⟩
    · exact hparts.transfer (hactions.mono (Nat.le_refl _) (Nat.le_succ _)) hproperties
    · have htop' := hactions _ _ (Nat.le_add_right ..) (Nat.lt_succ_self _) htop fun _ => rfl
      rw [hnode] at htop'
      exact htop'

theorem StandInRow.transfer {a q : Nat} {parent : Option ActionId} :
    ∀ {ps : List Plan}, StandInRow m entity link a q parent ps →
      KeepsActions m m' link link' a (a + sizes ps) →
      KeepsProperties m m' q (q + (slotsOf ps).length) →
      StandInRow m' entity link' a q parent ps
  | [], _, _, _ => trivial
  | p :: ps, ⟨hp, hps⟩, hactions, hproperties => by
    rw [sizes, ← Nat.add_assoc] at hactions
    rw [slotsOf, List.length_append, ← Nat.add_assoc] at hproperties
    refine ⟨hp.transfer ?_ ?_, hps.transfer ?_ ?_⟩
    · exact hactions.mono (Nat.le_refl _) (Nat.le_add_right ..)
    · exact hproperties.mono (Nat.le_refl _) (Nat.le_add_right ..)
    · exact hactions.mono (Nat.le_add_right ..) (Nat.le_refl _)
    · exact hproperties.mono (Nat.le_add_right ..) (Nat.le_refl _)

end

/-! ## 5. The way up from an action -/

/-- The way up from what is around a plan: nothing, or an action from the place `b` on. `outer`
    tells whether something on it repeats. -/
def Around (m : Model) (b : Nat) (outer : Bool) : Option ActionId → Prop
  | none => outer = false
  | some id => b ≤ id.index ∧ ∃ line, m.lineage id = .ok line ∧ line.any (·.2.isPlural) = outer

/-- The way up from an action repeats where the action does or what is around it. -/
theorem exists_lineage {i b : Nat} {outer : Bool} {x : Action} (hx : m.actions[i]? = some x)
    (hi : i < b) (h : Around m b outer x.parent) :
    ∃ line, m.lineage ⟨i⟩ = .ok line ∧ line.any (·.2.isPlural) = (outer || x.isPlural) := by
  cases hparent : x.parent with
  | none =>
    rw [hparent] at h
    refine ⟨[(⟨i⟩, x)], Model.lineage_top hx hparent, ?_⟩
    rw [show outer = false from h]
    simp
  | some parent =>
    rw [hparent] at h
    obtain ⟨hb, line, hline, hany⟩ := h
    refine ⟨(⟨i⟩, x) :: line, ?_, ?_⟩
    · rw [Model.lineage_parent hx hparent (Nat.lt_of_lt_of_le hi hb), hline]
      rfl
    · rw [List.any_cons, hany, Bool.or_comm]

/-- A property that a leaf fills: what it was made for, the leaf, and the way up from there. -/
structure Fills (m : Model) (entity : Name) (a b : Nat) (id : PropertyId) (f : Filler) (i : Nat)
    (x : Action) : Prop where
  within : a ≤ i ∧ i < b
  property : ∃ name,
    m.properties[id.index]? = some { name := name, entity := entity, source := ⟨i⟩ }
  action : m.actions[i]? = some x
  kind : x.kind = f.symbol.kind
  witness : x.isWitness = f.symbol.isWitness
  link : x.property = some id
  line : ∃ line, m.lineage ⟨i⟩ = .ok line ∧ line.any (·.2.isPlural) = f.plural

theorem Fills.mono {a b a' b' i : Nat} {id : PropertyId} {f : Filler} {x : Action}
    (h : Fills m entity a b id f i x) (ha : a' ≤ a) (hb : b ≤ b') :
    Fills m entity a' b' id f i x :=
  { h with within := ⟨Nat.le_trans ha h.within.1, Nat.lt_of_lt_of_le h.within.2 hb⟩ }

/-- The way up from what is around the parts of a plan starts with its topmost action. -/
theorem around_parts {mods : Modifiers} {choice : Bool} {parts : List Plan} {a q b : Nat}
    {outer : Bool} {parent : Option ActionId}
    (h : (node mods choice parts).Stands m entity link a q parent)
    (hb : a + sizes parts < b) (haround : Around m b outer parent) :
    Around m (a + sizes parts) (outer || mods.plural) (some ⟨a + sizes parts⟩) :=
  ⟨Nat.le_refl _, exists_lineage h.2 hb haround⟩

mutual

/-- Every leaf that asks for a name fills the property that was made for it. -/
theorem Stands.slot {a q b k : Nat} {outer : Bool} {parent : Option ActionId} {f : Filler} :
    ∀ {p : Plan}, p.Stands m entity link a q parent → a + p.size ≤ b → Around m b outer parent →
      (p.fillers outer)[k]? = some f → ∃ i x, Fills m entity a (a + p.size) ⟨q + k⟩ f i x
  | leaf mods symbol slot, ⟨htop, hslot⟩, hb, haround, hk => by
    cases slot with
    | none => exact absurd hk (by simp [fillers])
    | some name =>
      cases k with
      | succ k => exact absurd hk (by simp [fillers])
      | zero =>
        obtain rfl := Option.some.inj hk
        refine ⟨a, _, ⟨Nat.le_refl a, Nat.lt_succ_self a⟩, hslot rfl, htop, rfl, rfl, rfl, ?_⟩
        exact exists_lineage htop hb haround
  | node mods choice parts, h, hb, haround, hk => by
    obtain ⟨i, x, hfills⟩ := h.1.slot (Nat.le_refl _) (around_parts h hb haround) hk
    exact ⟨i, x, hfills.mono (Nat.le_refl a) (Nat.le_succ _)⟩

theorem StandInRow.slot {a q b k : Nat} {outer : Bool} {parent : Option ActionId} {f : Filler} :
    ∀ {ps : List Plan}, StandInRow m entity link a q parent ps → a + sizes ps ≤ b →
      Around m b outer parent → (fillersOf outer ps)[k]? = some f →
      ∃ i x, Fills m entity a (a + sizes ps) ⟨q + k⟩ f i x
  | [], _, _, _, hk => absurd hk (by simp [fillersOf])
  | p :: ps, ⟨hp, hps⟩, hb, haround, hk => by
    rw [sizes, ← Nat.add_assoc] at hb ⊢
    have hsize : a + p.size ≤ b := Nat.le_trans (Nat.le_add_right ..) hb
    by_cases hlt : k < p.width
    · rw [fillersOf, List.getElem?_append_left (by rwa [length_fillers])] at hk
      obtain ⟨i, x, hfills⟩ := hp.slot hsize haround hk
      exact ⟨i, x, hfills.mono (Nat.le_refl a) (Nat.le_add_right ..)⟩
    · have hle : p.width ≤ k := Nat.le_of_not_lt hlt
      rw [fillersOf, List.getElem?_append_right (by rwa [length_fillers]), length_fillers] at hk
      obtain ⟨i, x, hfills⟩ := hps.slot hb haround hk
      have hplace : q + p.width + (k - p.width) = q + k := by omega
      rw [hplace] at hfills
      exact ⟨i, x, hfills.mono (Nat.le_add_right ..) (Nat.le_refl _)⟩

end

/-! ## 6. The actions of a plan -/

/-- The actions of a plan are there. -/
theorem Stands.size_le {a q : Nat} {parent : Option ActionId} {p : Plan}
    (h : p.Stands m entity link a q parent) : a + p.size ≤ m.actions.size := by
  cases p with
  | leaf mods symbol slot => exact (Array.getElem?_eq_some_iff.1 h.1).1
  | node mods choice parts => exact (Array.getElem?_eq_some_iff.1 h.2).1

mutual

/-- An action of a plan is its topmost one, or belongs to a later action of the plan. -/
theorem Stands.parent {a q i : Nat} {parent : Option ActionId} {x : Action} :
    ∀ {p : Plan}, p.Stands m entity link a q parent → a ≤ i → i < a + p.size →
      m.actions[i]? = some x →
      i + 1 = a + p.size ∧ x.parent = parent ∨
        ∃ j, x.parent = some ⟨j⟩ ∧ i < j ∧ j < a + p.size
  | leaf mods symbol slot, ⟨htop, _⟩, ha, hi, hx => by
    obtain rfl : i = a := Nat.le_antisymm (Nat.le_of_lt_succ hi) ha
    obtain rfl := Option.some.inj (htop.symm.trans hx)
    exact .inl ⟨rfl, rfl⟩
  | node mods choice parts, ⟨hparts, htop⟩, ha, hi, hx => by
    rw [size, ← Nat.add_assoc] at hi ⊢
    rcases Nat.lt_succ_iff_lt_or_eq.1 hi with hlt | rfl
    · refine .inr ?_
      rcases hparts.parent ha hlt hx with hp | ⟨j, hp, hij, hj⟩
      · exact ⟨a + sizes parts, hp, hlt, Nat.lt_succ_self _⟩
      · exact ⟨j, hp, hij, Nat.lt_succ_of_lt hj⟩
    · obtain rfl := Option.some.inj (htop.symm.trans hx)
      exact .inl ⟨rfl, rfl⟩

theorem StandInRow.parent {a q i : Nat} {parent : Option ActionId} {x : Action} :
    ∀ {ps : List Plan}, StandInRow m entity link a q parent ps → a ≤ i → i < a + sizes ps →
      m.actions[i]? = some x →
      x.parent = parent ∨ ∃ j, x.parent = some ⟨j⟩ ∧ i < j ∧ j < a + sizes ps
  | [], _, ha, hi, _ => absurd (Nat.lt_of_le_of_lt ha hi) (Nat.lt_irrefl a)
  | p :: ps, ⟨hp, hps⟩, ha, hi, hx => by
    rw [sizes, ← Nat.add_assoc] at hi ⊢
    by_cases hlt : i < a + p.size
    · rcases hp.parent ha hlt hx with ⟨_, hparent⟩ | ⟨j, hparent, hij, hj⟩
      · exact .inl hparent
      · exact .inr ⟨j, hparent, hij, Nat.lt_of_lt_of_le hj (Nat.le_add_right ..)⟩
    · exact hps.parent (Nat.le_of_not_lt hlt) hi hx

end

mutual

/-- An action of a plan that belongs to another one of it is among the children of that one. -/
theorem Stands.child {a q i j : Nat} {parent : Option ActionId} {x : Action} :
    ∀ {p : Plan}, p.Stands m entity link a q parent → a ≤ i → i < a + p.size →
      m.actions[i]? = some x → x.parent = some ⟨j⟩ → j < a + p.size →
      (∀ id, parent = some id → a + p.size ≤ id.index) →
      ∃ y, m.actions[j]? = some y ∧ ⟨i⟩ ∈ y.children
  | leaf mods symbol slot, ⟨htop, _⟩, ha, hi, hx, hparent, hj, hout => by
    obtain rfl : i = a := Nat.le_antisymm (Nat.le_of_lt_succ hi) ha
    obtain rfl := Option.some.inj (htop.symm.trans hx)
    exact absurd hj (Nat.not_lt_of_le (hout _ hparent))
  | node mods choice parts, ⟨hparts, htop⟩, ha, hi, hx, hparent, hj, hout => by
    rw [size, ← Nat.add_assoc] at hi hj hout
    rcases Nat.lt_succ_iff_lt_or_eq.1 hi with hlt | rfl
    · rcases hparts.child ha hlt hx hparent (Nat.le_refl _) with hmem | hy
      · obtain ⟨rfl, hmem⟩ := hmem
        refine ⟨_, htop, ?_⟩
        cases choice <;> exact hmem
      · exact hy
    · obtain rfl := Option.some.inj (htop.symm.trans hx)
      exact absurd hj (Nat.not_lt_of_le (hout _ hparent))

theorem StandInRow.child {a q i j t : Nat} {x : Action} :
    ∀ {ps : List Plan}, StandInRow m entity link a q (some ⟨t⟩) ps → a ≤ i → i < a + sizes ps →
      m.actions[i]? = some x → x.parent = some ⟨j⟩ → a + sizes ps ≤ t →
      (j = t ∧ ⟨i⟩ ∈ roots a ps) ∨ ∃ y, m.actions[j]? = some y ∧ ⟨i⟩ ∈ y.children
  | [], _, ha, hi, _, _, _ => absurd (Nat.lt_of_le_of_lt ha hi) (Nat.lt_irrefl a)
  | p :: ps, ⟨hp, hps⟩, ha, hi, hx, hparent, ht => by
    rw [sizes, ← Nat.add_assoc] at hi ht
    have hpt : a + p.size ≤ t := Nat.le_trans (Nat.le_add_right ..) ht
    by_cases hlt : i < a + p.size
    · rcases hp.parent ha hlt hx with ⟨hi', hparent'⟩ | ⟨j', hparent', _, hj'⟩
      · obtain rfl : j = t := by
          rw [hparent] at hparent'
          exact congrArg ActionId.index (Option.some.inj hparent')
        refine .inl ⟨rfl, ?_⟩
        rw [roots, show i = a + p.size - 1 by omega]
        exact List.mem_cons_self
      · obtain rfl : j = j' := by
          rw [hparent] at hparent'
          exact congrArg ActionId.index (Option.some.inj hparent')
        refine .inr (hp.child ha hlt hx hparent hj' ?_)
        rintro id hid
        obtain rfl := Option.some.inj hid
        exact hpt
    · rcases hps.child (Nat.le_of_not_lt hlt) hi hx hparent ht with ⟨hj, hmem⟩ | hy
      · exact .inl ⟨hj, List.mem_cons_of_mem _ hmem⟩
      · exact .inr hy

end

mutual

/-- An action of a plan is the topmost one of a plan that stands in the same arenas, with some
    of the same properties. -/
theorem Stands.sub {a q i : Nat} {parent : Option ActionId} :
    ∀ {p : Plan}, p.Stands m entity link a q parent → a ≤ i → i < a + p.size →
      ∃ (p' : Plan) (a' q' : Nat) (parent' : Option ActionId),
        p'.Stands m entity link a' q' parent' ∧ a' + p'.size = i + 1 ∧
          q ≤ q' ∧ q' + p'.width ≤ q + p.width
  | leaf mods symbol slot, h, ha, hi => by
    obtain rfl : i = a := Nat.le_antisymm (Nat.le_of_lt_succ hi) ha
    exact ⟨_, _, _, _, h, rfl, Nat.le_refl _, Nat.le_refl _⟩
  | node mods choice parts, h, ha, hi => by
    rw [size, ← Nat.add_assoc] at hi
    rcases Nat.lt_succ_iff_lt_or_eq.1 hi with hlt | rfl
    · exact h.1.sub ha hlt
    · exact ⟨_, _, _, _, h, rfl, Nat.le_refl _, Nat.le_refl _⟩

theorem StandInRow.sub {a q i : Nat} {parent : Option ActionId} :
    ∀ {ps : List Plan}, StandInRow m entity link a q parent ps → a ≤ i → i < a + sizes ps →
      ∃ (p' : Plan) (a' q' : Nat) (parent' : Option ActionId),
        p'.Stands m entity link a' q' parent' ∧ a' + p'.size = i + 1 ∧
          q ≤ q' ∧ q' + p'.width ≤ q + (slotsOf ps).length
  | [], _, ha, hi => absurd (Nat.lt_of_le_of_lt ha hi) (Nat.lt_irrefl a)
  | p :: ps, ⟨hp, hps⟩, ha, hi => by
    rw [sizes, ← Nat.add_assoc] at hi
    rw [slotsOf, List.length_append, ← Nat.add_assoc]
    by_cases hlt : i < a + p.size
    · obtain ⟨p', a', q', parent', hstands, hsize, hq, hq'⟩ := hp.sub ha hlt
      exact ⟨p', a', q', parent', hstands, hsize, hq, Nat.le_trans hq' (Nat.le_add_right ..)⟩
    · obtain ⟨p', a', q', parent', hstands, hsize, hq, hq'⟩ := hps.sub (Nat.le_of_not_lt hlt) hi
      exact ⟨p', a', q', parent', hstands, hsize, Nat.le_trans (Nat.le_add_right ..) hq, hq'⟩

end

mutual

/-- The tree of a plan, as it is taken out of the arenas. -/
def treeOf (m : Model) (link : ActionId → Option PropertyId) (a q : Nat)
    (parent : Option ActionId) : Plan → ActionTree
  | leaf mods symbol slot =>
    .node ⟨a⟩ ((leaf mods symbol slot).top a q parent) (slot.bind fun _ => m.properties[q]?) []
  | node mods choice parts =>
    .node ⟨a + sizes parts⟩ { (node mods choice parts).top a q parent with
        property := link ⟨a + sizes parts⟩ }
      ((link ⟨a + sizes parts⟩).bind fun id => m.properties[id.index]?)
      (treesOf m link a q (some ⟨a + sizes parts⟩) parts)

/-- The trees of several plans in a row. -/
def treesOf (m : Model) (link : ActionId → Option PropertyId) (a q : Nat)
    (parent : Option ActionId) : List Plan → List ActionTree
  | [] => []
  | p :: ps =>
    p.treeOf m link a q parent :: treesOf m link (a + p.size) (q + p.width) parent ps

end

theorem linkedProperty_ok {x : Action} {p : Property} (id : PropertyId) (hx : x.property = some id)
    (hp : m.properties[id.index]? = some p) : m.linkedProperty x = .ok (some p) := by
  rw [Model.linkedProperty, hx]
  show some <$> m.property id = _
  rw [Model.property_eq_ok_iff.2 hp]
  rfl

mutual

/-- The tree below the topmost action of a plan is that of the plan. -/
theorem Stands.tree_eq {a q : Nat} {parent : Option ActionId}
    (hlink : ∀ c id, link c = some id → ∃ p, m.properties[id.index]? = some p) :
    ∀ {p : Plan}, p.Stands m entity link a q parent →
      m.tree ⟨a + p.size - 1⟩ = .ok (p.treeOf m link a q parent)
  | leaf mods symbol slot, ⟨htop, hslot⟩ => by
    have hchildren : ((leaf mods symbol slot).top a q parent).children = [] := by
      cases symbol <;> rfl
    have hlinked : m.linkedProperty ((leaf mods symbol slot).top a q parent) =
        .ok (slot.bind fun _ => m.properties[q]?) := by
      cases slot with
      | none => rfl
      | some name =>
        obtain ⟨name', hname⟩ := hslot rfl
        rw [linkedProperty_ok ⟨q⟩ rfl hname]
        show _ = Except.ok (m.properties[q]?)
        rw [hname]
    rw [Model.tree, show a + (leaf mods symbol slot).size - 1 = a from rfl,
      Model.action_eq_ok_iff.2 htop]
    simp only [bind, Except.bind, hchildren, hlinked, List.mapM_nil, pure, Except.pure]
    rfl
  | node mods choice parts, ⟨hparts, htop⟩ => by
    have hchildren : Action.children { (node mods choice parts).top a q parent with
        property := link ⟨a + sizes parts⟩ } = roots a parts := by
      cases choice <;> rfl
    have hlinked : m.linkedProperty { (node mods choice parts).top a q parent with
        property := link ⟨a + sizes parts⟩ } =
        .ok ((link ⟨a + sizes parts⟩).bind fun id => m.properties[id.index]?) := by
      cases hid : link ⟨a + sizes parts⟩ with
      | none => rfl
      | some id =>
        obtain ⟨p, hp⟩ := hlink _ id hid
        rw [linkedProperty_ok id rfl hp]
        show _ = Except.ok (m.properties[id.index]?)
        rw [hp]
    rw [Model.tree, show a + (node mods choice parts).size - 1 = a + sizes parts from rfl,
      Model.action_eq_ok_iff.2 htop]
    have htrees := hparts.tree_eq hlink (Nat.le_refl _)
    simp only [bind, Except.bind, hchildren, hlinked, htrees, pure, Except.pure]
    rfl

theorem StandInRow.tree_eq {a q b : Nat} {parent : Option ActionId}
    (hlink : ∀ c id, link c = some id → ∃ p, m.properties[id.index]? = some p) :
    ∀ {ps : List Plan}, StandInRow m entity link a q parent ps → a + sizes ps ≤ b →
      (roots a ps).mapM (fun child =>
        if child.index < b then m.tree child else .error (.noAction child.index)) =
        .ok (treesOf m link a q parent ps)
  | [], _, _ => rfl
  | p :: ps, ⟨hp, hps⟩, hb => by
    rw [sizes] at hb
    have hpos := p.size_pos
    have hlt : a + p.size - 1 < b := by omega
    rw [roots, List.mapM_cons, if_pos hlt, hp.tree_eq hlink, hps.tree_eq hlink (by omega)]
    rfl

end

end Plan

end Ebnf
