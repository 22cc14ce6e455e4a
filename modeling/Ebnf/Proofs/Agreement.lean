import Ebnf.Proofs.Lockstep
import Ebnf.Proofs.Types

/-!
# What models that agree have in common

In models that agree the entities that count stand for the same values, and their properties have
the same types.

* `Agrees.isVirtual`: which entities stand for the value of their property;
* `Agrees.entityType`, `Agrees.treeType`: types;
* `Agrees.propertyType`, `Agrees.field`: what follows for the properties.
-/

namespace Ebnf

open Checked (Alike)

namespace Pairing.Agrees

variable {w : Pairing} {m m' : Model}

/-! ## 1. Entities that stand for a value -/

/-- An entity that counts has siblings in both models, or in neither. -/
theorem hasSiblings (h : w.Agrees m m') {n : Name} (hn : w.name n) :
    m.hasSiblings n = m'.hasSiblings n := by
  obtain ⟨e, e', he, he', _⟩ := h.pairs.entity hn
  have hsupers : List.Forall₂ (fun a b => a = b ∧ w.name a) e.supers e.supers :=
    List.forall₂_same.2 fun parent hparent => ⟨rfl, h.closed n parent hn ⟨e, he, hparent⟩⟩
  have hparents : List.Forall₂ (fun o o' => o.subs = o'.subs)
      (e.supers.filterMap m.entity?) (e.supers.filterMap m'.entity?) := by
    refine List.rel_filterMap (fun a b hab => ?_) hsupers
    obtain ⟨rfl, ha⟩ := hab
    obtain ⟨o, o', ho, ho', _⟩ := h.pairs.entity ha
    rw [ho, ho']
    exact .some (h.links a ha o o' ho ho').2
  rw [Model.hasSiblings, Model.hasSiblings, he, he']
  simp only [← (h.links n hn e e' he he').1]
  exact any_eq_of_forall₂ hparents fun o o' hsubs => by rw [hsubs]

/-- An entity that counts is virtual in both models, or in neither. -/
theorem isVirtual (h : w.Agrees m m') {n : Name} (hn : w.name n) :
    Alike Eq (m.isVirtual n) (m'.isVirtual n) := by
  obtain ⟨e, e', he, he', hee⟩ := h.pairs.entity hn
  have hids := hee.ids
  have hsubs := (h.links n hn e e' he he').2
  rw [Model.isVirtual, Model.isVirtual, ← h.root, he, he', ← h.hasSiblings hn]
  simp only [← hsubs]
  split
  · exact .ok rfl
  generalize e.properties.ids = ids, e'.properties.ids = ids' at hids ⊢
  rcases hids with _ | ⟨honly, _ | ⟨_, _⟩⟩
  · exact .ok rfl
  · refine (h.pairs.isPlural honly).bind fun plural plural' hplural => ?_
    obtain rfl := hplural
    split
    · exact .ok rfl
    refine (h.pairs.property_alike honly).bind fun p p' hp =>
      (h.pairs.action_alike hp.source).bind fun x x' hxx => ?_
    rw [← hxx.isValueTerminal]
    exact .ok rfl
  · exact .ok rfl

/-- An entity that counts stands for the same in both models. -/
theorem wrappedTree? (h : w.Agrees m m') {n : Name} (hn : w.name n) :
    Alike (Option.Rel w.Trees) (m.wrappedTree? n) (m'.wrappedTree? n) := by
  obtain ⟨e, e', he, he', hee⟩ := h.pairs.entity hn
  have hids := hee.ids
  rw [Model.wrappedTree?, Model.wrappedTree?, he, he', Option.bind_some, Option.bind_some]
  generalize e.properties.ids = ids, e'.properties.ids = ids' at hids ⊢
  rcases hids with _ | ⟨honly, _⟩
  · exact .ok .none
  · exact (h.pairs.property_alike honly).bind fun p p' hp =>
      (h.pairs.tree hp.source).bind fun t t' htt => .ok (.some htt)

/-! ## 2. Types -/

mutual

/-- An entity that counts contributes the same type in both models. -/
theorem entityType (h : w.Agrees m m') (seen : List Name) {n : Name} (hn : w.name n) :
    Alike Eq (m.entityType seen n) (m'.entityType seen n) := by
  obtain ⟨b, hb, hb'⟩ := (h.isVirtual hn).exists_ok
  cases b with
  | false =>
    rw [Model.entityType_plain hb, Model.entityType_plain hb']
    exact .ok rfl
  | true =>
    by_cases hseen : n ∈ seen
    · rw [Model.entityType_seen hb hseen, Model.entityType_seen hb' hseen]
      exact .ok rfl
    · obtain ⟨t?, t?', ht, ht', htt⟩ := h.wrappedTree? hn
      cases htt with
      | none =>
        rw [Model.entityType_bare hb hseen ht, Model.entityType_bare hb' hseen ht']
        exact .ok rfl
      | some htt =>
        obtain ⟨type, htype, htype'⟩ := (h.treeType (n :: seen) htt).exists_ok
        rw [Model.entityType_wrapped hb hseen ht htype,
          Model.entityType_wrapped hb' hseen ht' htype']
        exact .ok rfl
termination_by (unseen m.names seen, 0)
decreasing_by
  exact Prod.Lex.left _ _ (unseen_lt (fun n hn => List.mem_cons_of_mem _ hn)
    (Model.mem_names_of_isVirtual hb) hseen List.mem_cons_self)

/-- What trees that correspond yield is of the same type. -/
theorem treeType (h : w.Agrees m m') (seen : List Name) {t t' : ActionTree} (htt : w.Trees t t') :
    Alike Eq (m.treeType seen t) (m'.treeType seen t') := by
  cases htt with
  | node hxx hp hts =>
    rename_i id id' x x' p p' ts ts'
    have hkind := hxx.kind
    rw [Model.treeType, Model.treeType]
    generalize x.kind = kind, x'.kind = kind' at hkind ⊢
    cases hkind with
    | literal text =>
      rw [← hxx.isWitness]
      exact .ok rfl
    | pattern source => exact .ok rfl
    | entity ht => exact (h.entityType seen ht).map fun _ _ heq => congrArg some heq
    | all _ => exact h.soleType seen none hts
    | any _ =>
      refine (h.branchTypes seen hts).bind fun types types' htypes => ?_
      obtain rfl := htypes
      cases hp with
      | none => exact .ok rfl
      | some hpp =>
        rw [Option.map_some, Option.map_some, hpp.entity]
        exact .ok rfl
termination_by (unseen m.names seen, 2 * sizeOf t)

theorem addedType (h : w.Agrees m m') (seen : List Name) {t t' : ActionTree} (htt : w.Trees t t') :
    Alike Eq (m.addedType seen t) (m'.addedType seen t') := by
  have hxx := htt.action
  rw [Model.addedType, Model.addedType, ← hxx.isLeaf, ← hxx.isNone_property]
  split
  · exact .ok rfl
  · exact h.treeType seen htt
termination_by (unseen m.names seen, 2 * sizeOf t + 1)

theorem soleType (h : w.Agrees m m') (seen : List Name) (found : Option ValueType)
    {ts ts' : List ActionTree} (hts : List.Forall₂ w.Trees ts ts') :
    Alike Eq (m.soleType seen found ts) (m'.soleType seen found ts') := by
  cases hts with
  | nil =>
    rw [Model.soleType, Model.soleType]
    exact .ok rfl
  | cons htt hts =>
    obtain ⟨type, htype, htype'⟩ := (h.addedType seen htt).exists_ok
    cases type with
    | none =>
      rw [Model.soleType_skip htype, Model.soleType_skip htype']
      exact h.soleType seen found hts
    | some type =>
      cases found with
      | none =>
        rw [Model.soleType_first htype, Model.soleType_first htype']
        exact h.soleType seen (some type) hts
      | some other =>
        rw [Model.soleType_second htype, Model.soleType_second htype']
        exact .ok rfl
termination_by (unseen m.names seen, 2 * sizeOf ts)

theorem branchTypes (h : w.Agrees m m') (seen : List Name) {ts ts' : List ActionTree}
    (hts : List.Forall₂ w.Trees ts ts') :
    Alike Eq (m.branchTypes seen ts) (m'.branchTypes seen ts') := by
  cases hts with
  | nil =>
    rw [Model.branchTypes, Model.branchTypes]
    exact .ok rfl
  | cons htt hts =>
    obtain ⟨type, htype, htype'⟩ := (h.addedType seen htt).exists_ok
    obtain ⟨types, htypes, htypes'⟩ := (h.branchTypes seen hts).exists_ok
    rw [Model.branchTypes_cons htype htypes, Model.branchTypes_cons htype' htypes']
    exact .ok rfl
termination_by (unseen m.names seen, 2 * sizeOf ts)

end

/-- Properties that correspond have values of the same type. -/
theorem propertyType (h : w.Agrees m m') {id id' : PropertyId} (hid : w.property id id') :
    Alike Eq (m.propertyType id) (m'.propertyType id') := by
  rw [Model.propertyType, Model.propertyType]
  refine (h.pairs.property_alike hid).bind fun p p' hp => ?_
  rw [Model.actionType, Model.actionType]
  exact (h.pairs.tree hp.source).bind fun t t' htt => h.treeType [] htt

/-- They make the same field. -/
theorem field (h : w.Agrees m m') {id id' : PropertyId} (hid : w.property id id') :
    Alike Eq (Field.ofModel m id) (Field.ofModel m' id') := by
  rw [Field.ofModel, Field.ofModel]
  refine (h.pairs.property_alike hid).bind fun p p' hp =>
    (h.pairs.isPlural hid).bind fun plural plural' hplural =>
      (h.pairs.action_alike hp.source).bind fun x x' hxx => ?_
  obtain rfl := hplural
  rw [hp.name, hxx.isWitness]
  exact .ok rfl

end Pairing.Agrees

end Ebnf
