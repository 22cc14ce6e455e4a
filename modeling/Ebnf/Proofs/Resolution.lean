import Ebnf.Proofs.TypeNames

/-!
# Types that entities end with

The type that an entity contributes is found on a way through virtual entities, and each way has its
own entities behind it. So the same entity may contribute one type on one way, and another type on
another. Whatever entity a way ends with, though, contributes itself where a way starts with it.

* `Model.resolve`: the type that a type ends with on a way;
* `Model.Opens`: a virtual entity has the type on which the types that its branches offer agree;
* `Model.Meets`, `Model.Bound`: all ways from a type meet another one;
* `Model.Openable.resolve_eq_or_bound`: two ways on which a type ends with different types;
* `Model.Openable.resolve_settled`: the entity that a way ends with contributes itself;
* `effectiveType_settled`: the same of the entities of a built model.
-/

namespace Ebnf

/-! ## 1. Types on a way -/

namespace Model

/-- The type that a type ends with on a way through the virtual entities in `seen`. -/
def resolve (m : Model) (seen : List Name) : ValueType → ValueType
  | .entity name => (m.entityType seen name).toOption.getD (.entity name)
  | type => type

/-- A virtual entity ends with itself on a way that has come back to it. On any other way it ends
    with what the types that its branches offer end with, where these agree. -/
structure Opens (m : Model) (name : Name) (offers : List (Option ValueType)) : Prop where
  mem_names : name ∈ m.names
  closed : ∀ seen, name ∈ seen → m.resolve seen (.entity name) = .entity name
  opened : ∀ seen, name ∉ seen → m.resolve seen (.entity name) =
    (commonType? (offers.map (Option.map (m.resolve (name :: seen))))).getD (.entity name)

/-- Every entity ends with itself on every way, or can be opened. -/
def Openable (m : Model) : Prop :=
  ∀ name, (∀ seen, m.resolve seen (.entity name) = .entity name) ∨ ∃ offers, m.Opens name offers

variable {m : Model} {name : Name} {offers : List (Option ValueType)} {seen : List Name}

/-- Branches that agree on a type have it in common. -/
theorem commonType?_eq_some {types : List (Option ValueType)} {type : ValueType}
    (hne : types ≠ []) (hall : ∀ other ∈ types, other = some type) :
    commonType? types = some type := by
  cases types with
  | nil => exact absurd rfl hne
  | cons first rest =>
    obtain rfl := hall first List.mem_cons_self
    rw [commonType?, if_pos]
    exact List.all_eq_true.2 fun other hother =>
      decide_eq_true (hall other (List.mem_cons_of_mem _ hother))

/-- Branches that all offer a type offer at least one. -/
theorem exists_offer (hne : offers ≠ []) (hfull : none ∉ offers) : ∃ v, some v ∈ offers := by
  obtain ⟨first, hfirst⟩ := List.exists_mem_of_ne_nil offers hne
  cases first with
  | none => exact absurd hfirst hfull
  | some v => exact ⟨v, hfirst⟩

namespace Opens

/-- A way that goes on through an entity has fewer left. -/
theorem unseen_lt (h : m.Opens name offers) (hseen : name ∉ seen) :
    unseen m.names (name :: seen) < unseen m.names seen :=
  Ebnf.unseen_lt (fun _ => List.mem_cons_of_mem _) h.mem_names hseen List.mem_cons_self

/-- Where an entity does not end with itself, its branches agree. -/
theorem resolve_eq_or (h : m.Opens name offers) (hseen : name ∉ seen) :
    m.resolve seen (.entity name) = .entity name ∨
      (offers ≠ [] ∧ none ∉ offers ∧ ∀ v, some v ∈ offers →
        m.resolve (name :: seen) v = m.resolve seen (.entity name)) := by
  rw [h.opened seen hseen]
  cases hcommon : commonType? (offers.map (Option.map (m.resolve (name :: seen)))) with
  | none => exact .inl rfl
  | some type =>
    refine .inr ⟨?_, fun hmem => ?_, fun v hv => ?_⟩
    · rintro rfl
      cases hcommon
    · cases eq_of_commonType? hcommon (List.mem_map_of_mem hmem)
    · exact Option.some.inj (eq_of_commonType? hcommon (List.mem_map_of_mem hv))

/-- Where its branches agree, an entity ends with what they end with. -/
theorem resolve_eq (h : m.Opens name offers) (hseen : name ∉ seen) (hne : offers ≠ [])
    (hfull : none ∉ offers) {type : ValueType}
    (hall : ∀ v, some v ∈ offers → m.resolve (name :: seen) v = type) :
    m.resolve seen (.entity name) = type := by
  rw [h.opened seen hseen, commonType?_eq_some (by simpa using hne), Option.getD_some]
  intro other hother
  obtain ⟨offer, hoffer, rfl⟩ := List.mem_map.1 hother
  cases offer with
  | none => exact absurd hoffer hfull
  | some v => exact congrArg some (hall v hoffer)

/-- Two ways on which the branches end with the same types are no different for the entity. -/
theorem resolve_congr (h : m.Opens name offers) {seen' : List Name} (hseen : name ∉ seen)
    (hseen' : name ∉ seen')
    (hall : ∀ v, some v ∈ offers → m.resolve (name :: seen) v = m.resolve (name :: seen') v) :
    m.resolve seen (.entity name) = m.resolve seen' (.entity name) := by
  rw [h.opened seen hseen, h.opened seen' hseen']
  congr 2
  refine List.map_congr_left fun offer hoffer => ?_
  cases offer with
  | none => rfl
  | some v => exact congrArg some (hall v hoffer)

end Opens

/-! ## 2. Types that all ways meet -/

/-- Whatever branches are taken, a way from a type meets the type `target`, after `k` entities at
    the latest. -/
inductive Meets (m : Model) (target : ValueType) : Nat → ValueType → Prop where
  | here (k : Nat) : Meets m target k target
  | onward {k : Nat} {name : Name} {offers : List (Option ValueType)} (opens : m.Opens name offers)
      (nonempty : offers ≠ []) (full : none ∉ offers)
      (branches : ∀ v, some v ∈ offers → Meets m target k v) : Meets m target (k + 1) (.entity name)

/-- All ways from a type meet the type `target`. -/
def Bound (m : Model) (target type : ValueType) : Prop :=
  ∃ k, m.Meets target k type

variable {target type other : ValueType}

theorem Meets.mono {k : Nat} (h : m.Meets target k type) :
    ∀ {k' : Nat}, k ≤ k' → m.Meets target k' type := by
  induction h with
  | here k => exact fun {k'} _ => .here k'
  | onward opens nonempty full _ ih =>
    intro k' hle
    obtain ⟨k', rfl⟩ : ∃ j, k' = j + 1 := ⟨k' - 1, by omega⟩
    exact .onward opens nonempty full fun v hv => ih v hv (Nat.le_of_succ_le_succ hle)

theorem Bound.refl (type : ValueType) : m.Bound type type :=
  ⟨0, .here 0⟩

/-- If all branches of an entity are bound for a type, so is the entity. -/
theorem Bound.onward (h : m.Opens name offers) (hne : offers ≠ []) (hfull : none ∉ offers)
    (hall : ∀ v, some v ∈ offers → m.Bound target v) : m.Bound target (.entity name) := by
  have hlimit : ∀ os : List (Option ValueType), (∀ v, some v ∈ os → m.Bound target v) →
      ∃ k, ∀ v, some v ∈ os → m.Meets target k v := by
    intro os
    induction os with
    | nil => exact fun _ => ⟨0, fun v hv => absurd hv List.not_mem_nil⟩
    | cons o os ih =>
      intro hos
      obtain ⟨k, hk⟩ := ih fun v hv => hos v (List.mem_cons_of_mem _ hv)
      cases o with
      | none => exact ⟨k, fun v hv => hk v (by simpa using hv)⟩
      | some w =>
        obtain ⟨j, hj⟩ := hos w List.mem_cons_self
        refine ⟨max k j, fun v hv => ?_⟩
        rcases List.mem_cons.1 hv with heq | hv
        · rw [Option.some.inj heq]
          exact hj.mono (Nat.le_max_right k j)
        · exact (hk v hv).mono (Nat.le_max_left k j)
  obtain ⟨k, hk⟩ := hlimit offers hall
  exact ⟨k + 1, .onward h hne hfull hk⟩

theorem Bound.trans (h : m.Bound target type) (h' : m.Bound type other) :
    m.Bound target other := by
  obtain ⟨k, hmeets⟩ := h'
  induction hmeets with
  | here k => exact h
  | onward opens nonempty full _ ih => exact .onward opens nonempty full ih

/-- On every way a type ends with one that it is bound for. -/
theorem Openable.bound_resolve (h : m.Openable) : ∀ (seen : List Name) (type : ValueType),
    m.Bound (m.resolve seen type) type := by
  intro seen
  induction hcount : unseen m.names seen using Nat.strong_induction_on generalizing seen with
  | _ count ih =>
    intro type
    cases type with
    | text => exact .refl _
    | boolean => exact .refl _
    | entity name =>
      rcases h name with hself | ⟨offers, hopens⟩
      · rw [hself seen]
        exact .refl _
      by_cases hseen : name ∈ seen
      · rw [hopens.closed seen hseen]
        exact .refl _
      rcases hopens.resolve_eq_or hseen with hself | ⟨hne, hfull, hall⟩
      · rw [hself]
        exact .refl _
      · have hless := hcount ▸ hopens.unseen_lt hseen
        exact .onward hopens hne hfull fun v hv => hall v hv ▸ ih _ hless _ rfl v

/-! ## 3. Different ways -/

/-- A way that has been at an entity ends with types bound for it, from all types bound for it. -/
theorem Meets.bound_resolve {n : Name} {k : Nat} (h : m.Meets (.entity n) k type)
    (hn : ∀ seen, n ∈ seen → m.resolve seen (.entity n) = .entity n) :
    ∀ {seen : List Name}, n ∈ seen → m.Bound (.entity n) (m.resolve seen type) := by
  induction h with
  | here k =>
    intro seen hseen
    rw [hn seen hseen]
    exact .refl _
  | @onward k name offers opens nonempty full branches ih =>
    intro seen hseen
    have hself : m.Bound (.entity n) (.entity name) := ⟨k + 1, .onward opens nonempty full branches⟩
    by_cases hname : name ∈ seen
    · rw [opens.closed seen hname]
      exact hself
    rcases opens.resolve_eq_or hname with heq | ⟨_, _, hall⟩
    · rw [heq]
      exact hself
    · obtain ⟨v, hv⟩ := exists_offer nonempty full
      rw [← hall v hv]
      exact ih v hv (List.mem_cons_of_mem _ hseen)

/-- Where a branch of an entity ends with a type that is bound for another one, the entity ends with
    itself, or it is bound for that one, and so is what it ends with. -/
theorem Openable.self_or_bound (h : m.Openable) (hopens : m.Opens name offers) {v : ValueType}
    (hv : some v ∈ offers) (hseen : name ∉ seen)
    (hbound : m.Bound target (m.resolve (name :: seen) v)) :
    m.resolve seen (.entity name) = .entity name ∨
      m.Bound target (m.resolve seen (.entity name)) ∧ m.Bound target (.entity name) := by
  rcases hopens.resolve_eq_or hseen with heq | ⟨_, _, hall⟩
  · exact .inl heq
  · rw [hall v hv] at hbound
    exact .inr ⟨hbound, hbound.trans (h.bound_resolve seen _)⟩

/-- A type ends with the same type on a way and on one with more behind it, or both types are bound
    for `n`, if everything on the one way only is. -/
theorem Openable.resolve_eq_or_bound (h : m.Openable) {n : Name}
    (hn : ∀ seen, n ∈ seen → m.resolve seen (.entity n) = .entity n) :
    ∀ (few many : List Name), n ∈ few → few ⊆ many →
      (∀ x ∈ many, x ∈ few ∨ m.Bound (.entity n) (.entity x)) → ∀ type,
      m.resolve few type = m.resolve many type ∨
        m.Bound (.entity n) (m.resolve few type) ∧ m.Bound (.entity n) (m.resolve many type) := by
  intro few
  induction hcount : unseen m.names few using Nat.strong_induction_on generalizing few with
  | _ count ih =>
    intro many hfew hsub hmore type
    cases type with
    | text => exact .inl rfl
    | boolean => exact .inl rfl
    | entity name =>
      rcases h name with hself | ⟨offers, hopens⟩
      · exact .inl ((hself few).trans (hself many).symm)
      by_cases hname : name ∈ few
      · exact .inl ((hopens.closed few hname).trans (hopens.closed many (hsub hname)).symm)
      by_cases hname' : name ∈ many
      · -- only the way with more behind it has come back to the entity
        obtain ⟨k, hmeets⟩ := (hmore name hname').resolve_left hname
        rw [hopens.closed many hname']
        exact .inr ⟨hmeets.bound_resolve hn hfew, ⟨k, hmeets⟩⟩
      have hless := hcount ▸ hopens.unseen_lt hname
      have hbranch := ih _ hless (name :: few) rfl (name :: many) (List.mem_cons_of_mem _ hfew)
        (List.cons_subset_cons name hsub) fun x hx => by
          rcases List.mem_cons.1 hx with rfl | hx
          · exact .inl List.mem_cons_self
          · exact (hmore x hx).imp_left (List.mem_cons_of_mem _)
      by_cases hsame : ∀ v, some v ∈ offers →
          m.resolve (name :: few) v = m.resolve (name :: many) v
      · exact .inl (hopens.resolve_congr hname hname' hsame)
      obtain ⟨v, hv, hdiff⟩ : ∃ v, some v ∈ offers ∧
          m.resolve (name :: few) v ≠ m.resolve (name :: many) v := by
        simpa using hsame
      obtain ⟨hleft, hright⟩ := (hbranch v).resolve_left hdiff
      -- where the branches agree, they agree on what the branch `v` ends with
      rcases h.self_or_bound hopens hv hname hleft with hfewself | ⟨hfewbound, hself⟩ <;>
        rcases h.self_or_bound hopens hv hname' hright with hmanyself | ⟨hmanybound, hself'⟩
      · exact .inl (hfewself.trans hmanyself.symm)
      · exact .inr ⟨by rwa [hfewself], hmanybound⟩
      · exact .inr ⟨hfewbound, by rwa [hmanyself]⟩
      · exact .inr ⟨hfewbound, hmanybound⟩

/-- A way that has been at `n`, but at no other entity from which `n` is as near, ends there from
    every type bound for `n`. -/
theorem Meets.resolve_eq {n : Name}
    (hn : ∀ seen, n ∈ seen → m.resolve seen (.entity n) = .entity n) {k : Nat} :
    ∀ {type : ValueType} {seen : List Name}, m.Meets (.entity n) k type → n ∈ seen →
      (∀ x ∈ seen, x ≠ n → ¬ m.Meets (.entity n) k (.entity x)) →
      m.resolve seen type = .entity n := by
  induction k with
  | zero =>
    intro type seen hmeets hseen _
    cases hmeets
    exact hn seen hseen
  | succ k ih =>
    intro type seen hmeets hseen hnone
    have hnone' : ∀ x ∈ seen, x ≠ n → ¬ m.Meets (.entity n) k (.entity x) := fun x hx hne hmeets' =>
      hnone x hx hne (hmeets'.mono (Nat.le_succ k))
    cases id hmeets with
    | here => exact hn seen hseen
    | @onward _ name offers opens nonempty full branches =>
      by_cases hself : name = n
      · rw [hself]
        exact hn seen hseen
      by_cases hnear : m.Meets (.entity n) k (.entity name)
      · exact ih hnear hseen hnone'
      have hname : name ∉ seen := fun hmem => hnone name hmem hself hmeets
      refine opens.resolve_eq hname nonempty full fun v hv => ?_
      refine ih (branches v hv) (List.mem_cons_of_mem _ hseen) fun x hx hne => ?_
      rcases List.mem_cons.1 hx with rfl | hx
      · exact hnear
      · exact hnone' x hx hne

/-! ## 4. The end of a way -/

/-- If a type ends with `n` on a way, then so does `n` on some way through entities bound for it. -/
theorem Openable.exists_way (h : m.Openable) {n : Name} : ∀ (seen : List Name) (type : ValueType),
    n ∉ seen → (∀ x ∈ seen, m.Bound (.entity n) (.entity x)) →
    m.resolve seen type = .entity n →
    ∃ seen', n ∉ seen' ∧ (∀ x ∈ seen', m.Bound (.entity n) (.entity x)) ∧
      m.resolve seen' (.entity n) = .entity n := by
  intro seen
  induction hcount : unseen m.names seen using Nat.strong_induction_on generalizing seen with
  | _ count ih =>
    intro type hn hseen hend
    cases type with
    | text => cases hend
    | boolean => cases hend
    | entity name =>
      by_cases hself : name = n
      · exact ⟨seen, hn, hseen, hself ▸ hend⟩
      rcases h name with hplain | ⟨offers, hopens⟩
      · rw [hplain seen] at hend
        exact absurd (ValueType.entity.inj hend) hself
      have hname : name ∉ seen := by
        intro hmem
        rw [hopens.closed seen hmem] at hend
        exact hself (ValueType.entity.inj hend)
      have hbound : m.Bound (.entity n) (.entity name) := hend ▸ h.bound_resolve seen _
      rcases hopens.resolve_eq_or hname with heq | ⟨hne, hfull, hall⟩
      · rw [heq] at hend
        exact absurd (ValueType.entity.inj hend) hself
      obtain ⟨v, hv⟩ := exists_offer hne hfull
      have hless := hcount ▸ hopens.unseen_lt hname
      refine ih _ hless (name :: seen) rfl v ?_ (fun x hx => ?_) ((hall v hv).trans hend)
      · rw [List.mem_cons, not_or]
        exact ⟨Ne.symm hself, hn⟩
      · rcases List.mem_cons.1 hx with rfl | hx
        · exact hbound
        · exact hseen x hx

/-- The entity that a type ends with contributes itself where a way starts with it. -/
theorem Openable.resolve_settled (h : m.Openable) {n : Name} {type : ValueType}
    (hend : m.resolve [] type = .entity n) : m.resolve [] (.entity n) = .entity n := by
  rcases h n with hplain | ⟨offers, hopens⟩
  · exact hplain []
  obtain ⟨seen, hn, hseen, hsettled⟩ := h.exists_way [] type List.not_mem_nil
    (fun x hx => absurd hx List.not_mem_nil) hend
  have hclosed := hopens.closed
  -- the branches of `n` on a way that starts with it, and on the way that was found
  have hbranch := h.resolve_eq_or_bound hclosed [n] (n :: seen) (List.mem_singleton_self n)
    (List.cons_subset_cons n (List.nil_subset seen)) fun x hx => by
      rcases List.mem_cons.1 hx with rfl | hx
      · exact .inl (List.mem_singleton_self _)
      · exact .inr (hseen x hx)
  have hstart : n ∉ ([] : List Name) := List.not_mem_nil
  by_cases hsame : ∀ v, some v ∈ offers → m.resolve [n] v = m.resolve (n :: seen) v
  · rw [hopens.resolve_congr hstart hn hsame]
    exact hsettled
  obtain ⟨v, hv, hdiff⟩ : ∃ v, some v ∈ offers ∧ m.resolve [n] v ≠ m.resolve (n :: seen) v := by
    simpa using hsame
  rcases hopens.resolve_eq_or hstart with heq | ⟨hne, hfull, hall⟩
  · exact heq
  -- all branches end with a type that is bound for `n`, so they are bound for `n` themselves
  have hbound : m.Bound (.entity n) (m.resolve [] (.entity n)) := by
    rw [← hall v hv]
    exact ((hbranch v).resolve_left hdiff).1
  obtain ⟨k, hmeets⟩ := hbound.trans (hall v hv ▸ h.bound_resolve [n] v)
  rw [← hall v hv]
  refine hmeets.resolve_eq hclosed (List.mem_singleton_self n) fun x hx hne => ?_
  exact absurd (List.mem_singleton.1 hx) hne

end Model

/-! ## 5. What the branches of an entity offer -/

/-- The type of what a leaf reads. -/
def Symbol.type : Symbol → ValueType
  | .literal _ true => .boolean
  | .literal _ false => .text
  | .pattern _ => .text
  | .reference target => .entity target

/-- On a way, what a leaf reads has the type that its own type ends with there. -/
theorem Symbol.HasType.eq {m : Model} {seen : List Name} {symbol : Symbol} {type : ValueType}
    (h : symbol.HasType m seen type) : type = m.resolve seen symbol.type := by
  cases symbol with
  | literal text witness => cases witness <;> exact h
  | pattern source => exact h
  | reference target =>
    have htype : m.entityType seen target = .ok type := h
    rw [Symbol.type, Model.resolve, htype]
    rfl

namespace Model

variable {m : Model} {seen : List Name}

/-- The types of the branches of a choice are those that they add. -/
theorem branchTypes_eq {f : ActionTree → Option ValueType} {ts : List ActionTree}
    (h : ∀ t ∈ ts, m.addedType seen t = .ok (f t)) : m.branchTypes seen ts = .ok (ts.map f) := by
  induction ts with
  | nil => rw [branchTypes]; rfl
  | cons t ts ih =>
    exact branchTypes_cons (h t List.mem_cons_self)
      (ih fun t' ht' => h t' (List.mem_cons_of_mem _ ht'))

/-- A tree has no type if none of its children adds one and it fills no property itself. -/
theorem treeType_silent {y : Action} (hleaf : y.isLeaf = false) {ts : List ActionTree}
    (h : ∀ t ∈ ts, m.addedType seen t = .ok none) (id : ActionId) :
    m.treeType seen (.node id y none ts) = .ok none := by
  have hsole : ∀ ts : List ActionTree, (∀ t ∈ ts, m.addedType seen t = .ok none) →
      m.soleType seen none ts = .ok none := by
    intro ts
    induction ts with
    | nil => exact fun _ => by rw [soleType]
    | cons t ts ih =>
      intro hts
      rw [soleType_skip (hts t List.mem_cons_self)]
      exact ih fun t' ht' => hts t' (List.mem_cons_of_mem _ ht')
  rw [treeType]
  cases hkind : y.kind with
  | all ids => exact hsole ts h
  | any ids =>
    simp only [branchTypes_eq h, bind, Except.bind, pure, Except.pure]
    cases ts <;> rfl
  | _ => simp [Action.isLeaf, hkind] at hleaf

end Model

namespace Plan

variable {m : Model} {entity : Name} {link : ActionId → Option PropertyId} {c : ActionId}
  {seen : List Name}

mutual

/-- A part of a choice adds no type if none of its leaves fills a property. -/
theorem addedType_silent (hlink : ∀ i id, link i = some id → i = c) {a q : Nat}
    {parent : Option ActionId} : ∀ {p : Plan}, p.slots = [] → a + p.size ≤ c.index →
      m.addedType seen (p.treeOf m link a q parent) = .ok none
  | leaf mods symbol slot, hslots, _ => by
    cases slot with
    | none =>
      rw [Model.addedType, if_pos]
      cases symbol <;> rfl
    | some name => cases hslots
  | node mods choice parts, hslots, hc => by
    have hsize : a + (sizes parts + 1) ≤ c.index := hc
    have hnone : link ⟨a + sizes parts⟩ = none := by
      cases hid : link ⟨a + sizes parts⟩ with
      | none => rfl
      | some id =>
        have hindex := congrArg ActionId.index (hlink _ id hid)
        have : a + sizes parts = c.index := hindex
        omega
    have hnode : Action.isLeaf { (node mods choice parts).top a q parent with property := none } =
        false := isLeaf_top_node mods choice parts a q parent
    have hparts : ∀ t ∈ treesOf m link a q (some ⟨a + sizes parts⟩) parts,
        m.addedType seen t = .ok none :=
      addedTypes_silent hlink hslots (Nat.le_of_succ_le hsize)
    rw [Model.addedType, treeOf, hnone, ActionTree.action, hnode, Bool.false_and,
      if_neg Bool.false_ne_true]
    exact Model.treeType_silent hnode hparts _

theorem addedTypes_silent (hlink : ∀ i id, link i = some id → i = c) {a q : Nat}
    {parent : Option ActionId} : ∀ {ps : List Plan}, slotsOf ps = [] → a + sizes ps ≤ c.index →
      ∀ t ∈ treesOf m link a q parent ps, m.addedType seen t = .ok none
  | [], _, _, _, ht => absurd ht List.not_mem_nil
  | p :: ps, hslots, hc, t, ht => by
    obtain ⟨hfirst, hrest⟩ := List.append_eq_nil_iff.1 hslots
    have hsize : a + (p.size + sizes ps) ≤ c.index := hc
    rcases List.mem_cons.1 ht with rfl | ht
    · exact addedType_silent hlink hfirst (by omega)
    · exact addedTypes_silent hlink hrest (by omega) t ht

end

/-- The type that a branch of a choice offers: that of a leaf that fills a property. -/
def offer : Plan → Option ValueType
  | leaf _ symbol (some _) => some symbol.type
  | _ => none

/-- If all leaves with properties are branches of a choice, its branches have the types that those
    leaves end with, and no others. -/
theorem StandInRow.branchTypes_eq (htypable : m.Typable)
    (hlink : ∀ i id, link i = some id → i = c) {outer : Bool}
    (haround : Around m c.index outer (some c)) :
    ∀ {ps : List Plan} {a q : Nat}, StandInRow m entity link a q (some c) ps →
      a + sizes ps ≤ c.index → Branches m c q (slotsOf ps).length →
      m.branchTypes seen (treesOf m link a q (some c) ps) =
        .ok ((ps.map offer).map (Option.map (m.resolve seen)))
  | [], _, _, _, _, _ => by rw [treesOf, Model.branchTypes]; rfl
  | p :: ps, a, q, ⟨hp, hps⟩, hc, hbranches => by
    have hsize : a + (p.size + sizes ps) ≤ c.index := hc
    rw [slotsOf, List.length_append] at hbranches
    have hfirst : Branches m c q p.width := hbranches.left
    have hrest : Branches m c (q + p.width) (slotsOf ps).length := hbranches.right
    refine Model.branchTypes_cons ?_ (hps.branchTypes_eq htypable hlink haround (by omega) hrest)
    cases p with
    | leaf mods symbol slot =>
      cases slot with
      | none =>
        rw [Model.addedType, if_pos (by cases symbol <;> rfl)]
        rfl
      | some name =>
        have hkind : ((leaf mods symbol (some name)).top a q (some c)).kind = symbol.kind := rfl
        obtain ⟨type, htype, hhas⟩ := htypable.leaf_type hkind rfl seen ⟨a⟩ m.properties[q]? []
        rw [Model.addedType, if_neg (by simp [treeOf, ActionTree.action, top])]
        rw [offer, Option.map_some, ← hhas.eq]
        exact htype
    | node mods choice parts =>
      have hinside : a + (sizes parts + 1 + sizes ps) ≤ c.index := hsize
      -- a leaf with a property further inside would be no branch of the choice
      have hslots : slotsOf parts = [] := by
        by_contra hne
        have hpos := List.length_pos_iff.2 hne
        have hwithin := hp.1.within (Nat.le_refl _)
          (around_parts hp (by omega) haround) hfirst hpos ?_
        · omega
        · intro heq
          have : a + sizes parts = c.index := congrArg ActionId.index (Option.some.inj heq)
          omega
      exact addedType_silent hlink hslots (by rw [size]; omega)

end Plan

/-! ## 6. Built models -/

variable {m : Model} {e : Entity} {s : Site} {g : Grammar}

/-- On every way, a tree has the type that the types offered end with there, if these agree, or else
    that of the entity of the given name. -/
def Model.Splits (m : Model) (name : Name) (t : ActionTree) (offers : List (Option ValueType)) :
    Prop :=
  ∀ seen, m.treeType seen t =
    .ok (some ((Model.commonType? (offers.map (Option.map (m.resolve seen)))).getD (.entity name)))

/-- A leaf offers the type of what it reads. -/
theorem Plan.Fills.splits {a b i : Nat} {id : PropertyId} {f : Plan.Filler} {x : Action}
    (h : Plan.Fills m e.name a b id f i x) (htypable : m.Typable) (p : Option Property) :
    m.Splits e.name (.node ⟨i⟩ x p []) [some f.symbol.type] := by
  intro seen
  obtain ⟨type, htype, hhas⟩ := htypable.leaf_type h.kind h.witness seen ⟨i⟩ p []
  rw [htype, hhas.eq]
  rfl

/-- A choice that a proxy is filled by offers what its branches do. -/
theorem Site.Hosts.splits_choice (h : s.Hosts m e) (htypable : m.Typable) {choice : ActionId}
    {proxy : PropertyId} (hproxy : s.proxy = some (choice, proxy)) :
    ∃ t offers, m.tree choice = .ok t ∧ m.Splits e.name t offers := by
  obtain ⟨mods, parts, a, q, parent, hstands, hindex, hfirst, hlast, htree⟩ :=
    h.exists_choice hproxy
  obtain ⟨y, hlinked, _⟩ := h.linked_proxy hproxy
  obtain ⟨line, hline⟩ := hlinked.line
  have haround : Plan.Around m choice.index (line.any (·.2.isPlural)) (some choice) :=
    ⟨Nat.le_refl _, line, hline, rfl⟩
  have hlink : ∀ i id, s.link i = some id → i = choice := by
    intro i id hid
    rw [link_proxy hproxy] at hid
    split at hid
    · assumption
    · cases hid
  have hbranches : Plan.Branches m choice q (Plan.slotsOf parts).length := by
    intro k hk
    obtain ⟨p, x, hp, hx, hparent, _⟩ :=
      (h.chooses choice proxy hproxy).branches (q - s.property + k) (by omega)
    rw [show s.property + (q - s.property + k) = q + k by omega] at hp
    exact ⟨p, x, hp, hx, hparent⟩
  have hrow : Plan.StandInRow m e.name s.link a q (some choice) parts := by
    have hparts := hstands.1
    rwa [hindex] at hparts
  refine ⟨_, parts.map Plan.offer, htree, fun seen => ?_⟩
  exact Model.treeType_choice rfl
    (hrow.branchTypes_eq htypable hlink haround (Nat.le_of_eq hindex) hbranches) choice
    (s.proxyOf e.name choice)

/-- What fills a property offers some types. -/
theorem Site.Hosts.exists_splits (h : s.Hosts m e) (htypable : m.Typable) {place : Nat}
    {key : Name} {id : PropertyId} (hplace : e.properties[place]? = some (key, id)) :
    ∃ p t offers, m.property id = .ok p ∧ m.tree p.source = .ok t ∧ m.Splits e.name t offers := by
  cases hproxy : s.proxy with
  | none =>
    obtain ⟨hlt, rfl⟩ := h.place_plain hproxy hplace
    obtain ⟨f, i, x, _, hfills⟩ := h.exists_slot hlt
    obtain ⟨p, hp, hsource, htree⟩ := hfills.tree_eq
    exact ⟨p, _, _, Model.property_eq_ok_iff.2 hp, hsource ▸ htree,
      hfills.splits htypable (some p)⟩
  | some entry =>
    obtain ⟨choice, proxy⟩ := entry
    obtain ⟨rfl, rfl⟩ := h.place_proxy hproxy hplace
    obtain ⟨t, offers, htree, hsplits⟩ := h.splits_choice htypable hproxy
    exact ⟨_, t, offers, Model.property_eq_ok_iff.2 (h.chooses choice id hproxy).property, htree,
      hsplits⟩

/-- Every virtual entity of a built model can be opened. -/
theorem Site.Wraps.exists_opens {name : Name} {id : PropertyId} {p : Property} {t : ActionTree}
    (h : s.Wraps m name e id p t) (htypable : m.Typable) (hvirtual : m.isVirtual name = .ok true) :
    ∃ offers, m.Opens name offers := by
  obtain ⟨key, hproperties⟩ := h.place
  have hplace : e.properties[0]? = some (key, id) := by rw [hproperties]; rfl
  obtain ⟨p', t', offers, hp, ht, hsplits⟩ := h.hosts.exists_splits htypable hplace
  obtain rfl := Except.ok.inj (h.property.symm.trans hp)
  obtain rfl := Except.ok.inj (h.tree.symm.trans ht)
  refine ⟨offers, Model.mem_names_of_isVirtual hvirtual, fun seen hseen => ?_, fun seen hseen => ?_⟩
  · rw [Model.resolve, Model.entityType_seen hvirtual hseen]
    rfl
  · rw [Model.resolve, Model.entityType_wrapped hvirtual hseen h.wrapped (hsplits (name :: seen)),
      h.name_eq]
    rfl

/-- Every entity of a built model ends with itself, or can be opened. -/
theorem Build.Reached.openable [Unicode.Xid] (h : Build.Reached g m True) : m.Openable := by
  obtain ⟨site, hsited⟩ := h.bodies trivial
  have htypable := h.typable
  intro name
  obtain ⟨b, hvirtual⟩ := htypable.isVirtual name
  cases b with
  | false =>
    refine .inl fun seen => ?_
    rw [Model.resolve, Model.entityType_plain hvirtual]
    rfl
  | true =>
    obtain ⟨e, id, p, t, hwraps⟩ := hsited.wraps hvirtual
    exact .inr (hwraps.exists_opens htypable hvirtual)

/-- If an entity of a built model contributes another one where it is referred to, or itself, then
    that is an entity of the model that contributes itself. -/
theorem effectiveType_settled [Unicode.Xid] (hmodel : Model.ofGrammar g = .ok m) {entity n : Name}
    (hentity : entity ∈ m.names) (htype : m.effectiveType entity = .ok (.entity n)) :
    n ∈ m.names ∧ m.effectiveType n = .ok (.entity n) := by
  obtain ⟨hreached, _⟩ := Build.reached_ofGrammar hmodel
  have hresolve : ∀ {name : Name} {type : ValueType}, m.effectiveType name = .ok type →
      m.resolve [] (.entity name) = type := by
    intro name type hname
    rw [Model.effectiveType] at hname
    rw [Model.resolve, hname]
    rfl
  refine ⟨hreached.mem_names_of_entityType hentity htype, ?_⟩
  have hsettled := hreached.openable.resolve_settled (hresolve htype)
  obtain ⟨type, hn⟩ := hreached.typable.entityType_ok [] n
  rw [hresolve hn] at hsettled
  rw [Model.effectiveType, hn, hsettled]

namespace Nested

/-- Pairs of an outer and an inner part. An outer part is what an inner part is, which may be a mark
    or an outer part again. -/
def grammar : Grammar where
  rules := [
    { name := "pair", body := .sequence (.reference none "outer") (.reference none "inner") },
    { name := "outer", body := .reference none "inner" },
    { name := "inner", body := .choice (.reference none "mark") (.reference none "outer") },
    { name := "mark", body := .sequence (.literal none "c") (.literal none "d") }]

def pair : Entity where
  name := "pair"
  rule := grammar.rule? "pair"
  properties := [("outer", ⟨0⟩), ("inner", ⟨1⟩)]
  action := some ⟨2⟩

def outer : Entity where
  name := "outer"
  rule := grammar.rule? "outer"
  properties := [("inner", ⟨2⟩)]
  action := some ⟨3⟩

def inner : Entity where
  name := "inner"
  rule := grammar.rule? "inner"
  properties := [("alternative", ⟨5⟩)]
  action := some ⟨6⟩

def mark : Entity where
  name := "mark"
  rule := grammar.rule? "mark"
  action := some ⟨9⟩

/-- The model of the pairs with the given links. -/
def linked (links : List (Name × Name)) : Model :=
  links.foldl (fun m link => (m.addSub link.1 link.2).addSuper link.2 link.1) {
    entities := [pair, outer, inner, mark]
    properties := #[
      { name := "outer", entity := "pair", source := ⟨0⟩ },
      { name := "inner", entity := "pair", source := ⟨1⟩ },
      { name := "inner", entity := "outer", source := ⟨3⟩ },
      { name := "mark", entity := "inner", source := ⟨4⟩ },
      { name := "outer", entity := "inner", source := ⟨5⟩ },
      { name := "alternative", entity := "inner", source := ⟨6⟩, kind := .proxy [⟨3⟩, ⟨4⟩] }]
    actions := #[
      { kind := .entity "outer", property := some ⟨0⟩, parent := some ⟨2⟩ },
      { kind := .entity "inner", property := some ⟨1⟩, parent := some ⟨2⟩ },
      { kind := .all [⟨0⟩, ⟨1⟩] },
      { kind := .entity "inner", property := some ⟨2⟩ },
      { kind := .entity "mark", property := some ⟨3⟩, parent := some ⟨6⟩ },
      { kind := .entity "outer", property := some ⟨4⟩, parent := some ⟨6⟩ },
      { kind := .any [⟨4⟩, ⟨5⟩], property := some ⟨5⟩ },
      { kind := .literal "c", parent := some ⟨9⟩ },
      { kind := .literal "d", parent := some ⟨9⟩ },
      { kind := .all [⟨7⟩, ⟨8⟩] }]
    root := some "pair" }

/-- The model of the pairs. The inner part is a special case of the outer one, so that is none of
    the inner one. -/
def model : Model :=
  linked [("outer", "inner"), ("inner", "mark")]

theorem discover_outer (events : Array Event) (attached : List (Name × PropertyId)) :
    Build.discover outer { model := linked [], events, attached } = .ok ["inner"]
      { model := linked [("outer", "inner")],
        events := events.push (.subFound "outer" "inner"), attached } := by
  have hinner : (linked []).register? "outer" "inner" = some (linked [("outer", "inner")]) :=
    Model.register?_of_isA_eq_false (by decide) (by cbv) (by cbv) (by decide) (by decide)
  exact Build.discover_reference rfl (by cbv) rfl rfl rfl rfl (by cbv) rfl
    (Build.registerSub_some hinner)

theorem discover_inner (events : Array Event) (attached : List (Name × PropertyId)) :
    Build.discover { inner with supers := ["outer"] }
        { model := linked [("outer", "inner")], events, attached } = .ok ["mark", "outer"]
      { model, events := (events.push (.subFound "inner" "mark")).push
          (.subSkipped "inner" "outer"), attached } := by
  have hmark : (linked [("outer", "inner")]).register? "inner" "mark" = some model :=
    Model.register?_of_isA_eq_false (by decide) (by cbv) (by cbv) (by decide) (by decide)
  have houter : model.register? "inner" "outer" = none :=
    Model.register?_of_isA (by cbv)
  refine Build.discover_proxy rfl (by cbv) rfl rfl (by cbv) ?_
  exact (forM_cons_of_ok (Build.registerSub_some hmark)).trans
    (forM_cons_of_ok (Build.registerSub_none houter))

theorem walk_eq (events : Array Event) (attached : List (Name × PropertyId)) :
    Build.walk ["pair", "outer", "inner", "mark"] [] ["pair"]
      { model := linked [], events, attached } = .ok ()
      { model, events := ((events.push (.subFound "outer" "inner")).push
          (.subFound "inner" "mark")).push (.subSkipped "inner" "outer"), attached } := by
  have hpair : Build.discover pair { model := linked [], events, attached } =
      .ok ["outer", "inner"] { model := linked [], events, attached } := by
    cbv
  have hmark : ∀ events, Build.discover { mark with supers := ["inner"] }
      { model, events, attached } = .ok [] { model, events, attached } := by
    intro events
    cbv
  rw [Build.walk_cons (by decide) rfl hpair, List.append_nil,
    Build.walk_cons (by decide) rfl (discover_outer _ _), List.cons_append,
    Build.walk_cons (by decide) rfl (discover_inner _ _), List.cons_append,
    Build.walk_cons (by decide) rfl (hmark _), List.nil_append, List.cons_append,
    Build.walk_pass (by decide), List.nil_append, List.nil_append,
    Build.walk_pass (by decide), Build.walk]
  rfl

theorem ofGrammar_eq : Model.ofGrammar grammar = .ok model :=
  Build.ofGrammar_of_walk (m := linked []) (by cbv) rfl
    fun events attached => ⟨_, _, walk_eq events attached⟩

/-- The branches of the inner part have no type in common on the way through the outer one. -/
theorem entityType_inner : model.entityType ["outer"] "inner" = .ok (.entity "inner") := by
  have htree : model.wrappedTree? "inner" =
      .ok (some (.node ⟨6⟩ model.actions[6] (some model.properties[5])
        [.node ⟨4⟩ model.actions[4] (some model.properties[3]) [],
          .node ⟨5⟩ model.actions[5] (some model.properties[4]) []])) := by
    cbv
  have hmark : model.entityType ["inner", "outer"] "mark" = .ok (.entity "mark") :=
    Model.entityType_plain (by cbv) _
  have houter : model.entityType ["inner", "outer"] "outer" = .ok (.entity "outer") :=
    Model.entityType_seen (by cbv) (by decide)
  have htypes := Model.branchTypes_cons
    (Model.addedType_reference (x := model.actions[4]) rfl rfl hmark ⟨4⟩
      (some model.properties[3]) [])
    (Model.branchTypes_cons
      (Model.addedType_reference (x := model.actions[5]) rfl rfl houter ⟨5⟩
        (some model.properties[4]) [])
      (by rw [Model.branchTypes]))
  exact Model.entityType_wrapped (by cbv) (by decide) htree
    (Model.treeType_choice rfl htypes ⟨6⟩ model.properties[5])

theorem effectiveType_outer : model.effectiveType "outer" = .ok (.entity "inner") := by
  have htree : model.wrappedTree? "outer" =
      .ok (some (.node ⟨3⟩ model.actions[3] (some model.properties[2]) [])) := by
    cbv
  have htype : model.treeType ["outer"] (.node ⟨3⟩ model.actions[3] (some model.properties[2]) []) =
      .ok (some (.entity "inner")) :=
    Model.addedType_reference (x := model.actions[3]) rfl rfl entityType_inner ⟨3⟩ _ []
  exact Model.entityType_wrapped (by cbv) List.not_mem_nil htree htype

end Nested

/-- An outer part contributes what an inner part is, and an inner part itself, though it may be an
    outer part again. -/
theorem effectiveType_settled_nested :
    Model.ofGrammar Nested.grammar = .ok Nested.model ∧ "outer" ∈ Nested.model.names ∧
    Nested.model.effectiveType "outer" = .ok (.entity "inner") ∧
    "inner" ∈ Nested.model.names ∧
    Nested.model.effectiveType "inner" = .ok (.entity "inner") := by
  have houter : "outer" ∈ Nested.model.names := by decide
  exact ⟨Nested.ofGrammar_eq, houter, Nested.effectiveType_outer,
    effectiveType_settled Nested.ofGrammar_eq houter Nested.effectiveType_outer⟩

end Ebnf
