import Ebnf.Model.Issue
import Ebnf.Proofs.Pipeline

/-!
# Built models break no rule

Whatever stages a model has been through, checking it finds nothing but the bodies that have not
been made yet.

* `Checked.mapM_map`: requests in a row whose answers are known;
* `Model.Lists.propertyIssues`, `Model.Ranked.edgeIssues`: the checks one by one;
* `issues_stages`: what is found after any number of stages, and in a built model.
-/

namespace Ebnf

/-- Requests in a row whose answers are known. -/
theorem Checked.mapM_map {α β : Type} {f : α → Checked β} {ans : α → β} (xs : List α)
    (h : ∀ x ∈ xs, f x = .ok (ans x)) : xs.mapM f = .ok (xs.map ans) := by
  induction xs with
  | nil => rfl
  | cons x xs ih =>
    rw [List.mapM_cons, h x List.mem_cons_self, ih fun y hy => h y (List.mem_cons_of_mem _ hy)]
    rfl

namespace Model

variable {m : Model} {g : Grammar}

/-! ## 1. The checks one by one -/

/-- The root is an entity. -/
theorem OfRules.rootIssues (h : m.OfRules g) : m.rootIssues = [] := by
  rw [Model.rootIssues, h.root]
  cases hrules : g.rules with
  | nil =>
    have hnone : ∀ n, g.rule? n = none := fun n => by rw [Grammar.rule?, hrules]; rfl
    have hentities : m.entities = [] := by
      refine List.eq_nil_iff_forall_not_mem.2 fun e he => ?_
      obtain ⟨r, hr⟩ := (h.names e.name).1 (List.mem_map_of_mem he)
      rw [hnone] at hr
      contradiction
    rw [Grammar.root?, hrules, hentities]
    rfl
  | cons r rest =>
    have hroot : r.name ∈ m.names := by
      refine (h.names _).2 ⟨r, ?_⟩
      rw [Grammar.rule?, hrules, List.find?_cons_of_pos (by simp)]
    rw [Grammar.root?, hrules]
    exact if_pos hroot

/-- Every action refers to an entity. -/
theorem Closed.targetIssues (h : m.Closed) {a : Action} (ha : a ∈ m.actions.toList) :
    m.targetIssues a = .ok [] := by
  obtain ⟨i, hi⟩ := List.mem_iff_getElem?.1 ha
  rw [Array.getElem?_toList] at hi
  rw [Model.targetIssues]
  cases ht : a.target? with
  | none => rfl
  | some t => exact if_pos (h i a t hi ht)

/-- A property and its action are not detached. -/
theorem Linked.isDetached {id : PropertyId} {p : Property} {x : Action} (h : m.Linked id p x) :
    m.isDetached id p = .ok false := by
  rw [Model.isDetached, action_eq_ok_iff.2 h.source]
  show Except.ok (decide (x.property ≠ some id)) = _
  rw [h.link]
  simp

/-- A listed property has its name and its links. -/
theorem Lists.propertyIssues {key : Name} {id : PropertyId} (h : m.Lists key id) (entity : Name) :
    m.propertyIssues entity key id = .ok [] := by
  obtain ⟨p, x, hlinked, hname, hsubs⟩ := h
  have hbelow := Checked.mapM_map (f := fun sub => do
      let q ← m.property sub
      return if ← m.isDetached sub q then [Issue.detachedProperty entity q.name] else [])
    p.subsumed fun sub hsub => by
      obtain ⟨q, y, hqy⟩ := hsubs sub hsub
      simp only [bind, Except.bind, property_eq_ok_iff.2 hqy.property, hqy.isDetached, pure,
        Except.pure]
      rfl
  rw [Model.propertyIssues]
  simp only [bind, Except.bind, property_eq_ok_iff.2 hlinked.property, hlinked.isDetached, pure,
    Except.pure] at hbelow ⊢
  rw [hbelow, hname]
  simp

/-- The other side of a link knows of it. -/
theorem Ranked.edgeIssues (h : m.Ranked) {e : Entity} (he : e ∈ m.entities) :
    m.edgeIssues e = [] := by
  have hknown : ∀ (names : List Name) (other : Entity → List Name),
      (∀ n ∈ names, n ∈ m.names) →
      (∀ o ∈ m.entities, o.name ∈ names → e.name ∈ other o) →
      (names.filter fun n => !(m.entity? n).any fun o => e.name ∈ other o) = [] := by
    intro names other hnames hother
    refine List.filter_eq_nil_iff.2 fun n hn => ?_
    obtain ⟨o, ho⟩ := mem_names_iff.1 (hnames n hn)
    have hname := name_of_entity?_eq_some ho
    have hmem := hother o (mem_of_entity?_eq_some ho) (hname ▸ hn)
    rw [ho]
    simp [hmem]
  rw [Model.edgeIssues]
  simp only
  rw [hknown e.subs Entity.supers (fun n hn => h.known e he n (.inr hn))
      fun o ho hn => (h.both e he o ho).1 hn,
    hknown e.supers Entity.subs (fun n hn => h.known e he n (.inl hn))
      fun o ho hn => (h.both o ho e he).2 hn]
  rfl

/-- No entity is a special case of itself. -/
theorem Ranked.isA_self (h : m.Ranked) (name : Name) : m.isA name name = false := by
  cases hself : m.isA name name with
  | false => rfl
  | true => exact absurd (isA_iff.1 hself) (h.acyclic name)

/-- The only thing that may be wrong with an orderly entity is that it has no action. -/
theorem Orderly.entityIssues {e : Entity} (h : m.Orderly e) (hranked : m.Ranked)
    (he : e ∈ m.entities) : m.entityIssues e =
      .ok (if e.action.isNone then [.missingAction e.name] else []) := by
  have hproperties := Checked.mapM_map
    (f := fun entry => m.propertyIssues e.name entry.1 entry.2) e.properties
    fun entry hentry => (h.properties entry.1 entry.2 hentry).propertyIssues e.name
  rw [Model.entityIssues]
  simp only [bind, Except.bind, pure, Except.pure]
  rw [hproperties, hranked.edgeIssues he, hranked.isA_self]
  simp

end Model

namespace Build

variable {g : Grammar} {m : Model}

/-! ## 2. Checking a built model -/

/-- All that is found between two stages is that bodies have not been made yet. -/
theorem Reached.issues [Unicode.Xid] {built : Prop} [Decidable built] (h : Reached g m built) :
    m.issues = .ok (if built then [] else m.names.map .missingAction) := by
  have htargets := Checked.mapM_map (f := m.targetIssues) m.actions.toList
    fun a ha => h.closed.targetIssues ha
  have hentities := Checked.mapM_map (f := m.entityIssues) m.entities
    fun e he => (h.orderly e he).entityIssues h.ranked he
  rw [Model.issues, htargets, hentities]
  show Except.ok (m.rootIssues ++ (m.actions.toList.map fun _ => []).flatten ++
    (m.entities.map _).flatten) = _
  rw [h.rules.rootIssues]
  by_cases hbuilt : built
  · obtain ⟨site, hsited⟩ := h.bodies hbuilt
    have haction : ∀ e ∈ m.entities,
        (if e.action.isNone then [Issue.missingAction e.name] else []) = [] := by
      intro e he
      rw [(hsited.hosts_of_mem he).action]
      rfl
    rw [if_pos hbuilt, List.map_congr_left haction]
    simp
  · have haction : ∀ e ∈ m.entities,
        (if e.action.isNone then [Issue.missingAction e.name] else []) =
          [Issue.missingAction e.name] := by
      intro e he
      rw [((h.bodiless hbuilt).entities e he).2]
      rfl
    have hflat : (m.entities.map fun e => [Issue.missingAction e.name]).flatten =
        m.entities.map (Issue.missingAction ∘ Entity.name) := by
      rw [← List.flatMap_def]
      exact List.map_eq_flatMap.symm
    rw [if_neg hbuilt, List.map_congr_left haction, hflat, Model.names, List.map_map]
    simp

/-- Checking the model after any number of stages finds one missing action for each entity, or
    nothing at all if the bodies were among the stages. Where the stages do not lead to a model,
    making the bodies has met a reference to a rule that is not declared, or the ids have run out.
    Nothing is found in the model of a grammar. -/
theorem issues_stages [Unicode.Xid] (g : Grammar) (ss : List Stage) :
    (match (Build.run (stages g ss) ∅).1 with
      | .ok m => m.names.Nodup ∧
          m.issues = .ok (if Stage.bodies ∈ ss then [] else m.names.map .missingAction)
      | .error stop => Stage.bodies ∈ ss ∧ Halted g stop) ∧
    match Model.ofGrammar g with
      | .ok m => m.issues = .ok []
      | .error stop => Halted g stop ∨ g.rules = [] ∧ stop = .error .emptyGrammar := by
  constructor
  · have hrun := Ensures.run (Q := fun m => Reached g m (Stage.bodies ∈ ss))
      (ensures_stages g ss { model := ∅ })
    revert hrun
    cases (Build.run (stages g ss) ∅).1 with
    | ok m => exact fun h => ⟨h.rules.nodup, h.issues⟩
    | error stop => exact fun h => h
  · have hrun := Ensures.run (Q := fun m => Reached g m True ∧ Surveyed m)
      (ensures_grammar g { model := ∅ })
    rw [Model.ofGrammar]
    revert hrun
    cases (Build.run (Build.grammar g) ∅).1 with
    | ok m => exact fun h => h.1.issues
    | error stop => exact fun h => h

end Build

end Ebnf
