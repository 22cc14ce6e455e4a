import Ebnf.Proofs.Stages

/-!
# The rules that count

Where a name is declared more than once, its first rule counts and the later ones are passed over.
The stage of the entities makes one entity for each rule that counts, in their order, and nothing
else.

* `Grammar.firstRules`: the first rule of each name;
* `Grammar.rule?_of_mem_firstRules`: it is the rule of its name;
* `Build.exists_skeleton`: the model after the stage of the entities.
-/

namespace Ebnf

/-! ## 1. First rules -/

/-- The first rule of each name, in order. -/
def firstOfName : List Rule → List Rule
  | [] => []
  | r :: rs => r :: (firstOfName rs).filter (·.name ≠ r.name)

/-- The rules that count. -/
def Grammar.firstRules (g : Grammar) : List Rule :=
  firstOfName g.rules

/-- A rule of a new name counts, and one of a name that is taken does not. -/
theorem firstOfName_concat (rs : List Rule) (r : Rule) :
    firstOfName (rs ++ [r]) =
      if r.name ∈ (firstOfName rs).map Rule.name then firstOfName rs
      else firstOfName rs ++ [r] := by
  induction rs with
  | nil => rfl
  | cons x rs ih =>
    rw [List.cons_append, firstOfName, ih, firstOfName]
    by_cases hx : r.name = x.name
    · have hmem : r.name ∈ (x :: (firstOfName rs).filter (·.name ≠ x.name)).map Rule.name := by
        simp [hx]
      rw [if_pos hmem]
      split
      · rfl
      · simp [List.filter_append, hx]
    · by_cases hold : r.name ∈ (firstOfName rs).map Rule.name
      · obtain ⟨y, hy, hname⟩ := List.mem_map.1 hold
        have hmem : r.name ∈ (x :: (firstOfName rs).filter (·.name ≠ x.name)).map Rule.name := by
          refine List.mem_map.2 ⟨y, List.mem_cons_of_mem _ (List.mem_filter.2 ⟨hy, ?_⟩), hname⟩
          simpa [hname] using hx
        rw [if_pos hold, if_pos hmem]
      · have hmem : r.name ∉ (x :: (firstOfName rs).filter (·.name ≠ x.name)).map Rule.name := by
          intro hmem
          obtain ⟨y, hy, hname⟩ := List.mem_map.1 hmem
          rcases List.mem_cons.1 hy with rfl | hy
          · exact hx hname.symm
          · exact hold (List.mem_map.2 ⟨y, (List.mem_filter.1 hy).1, hname⟩)
        rw [if_neg hold, if_neg hmem, List.filter_append]
        simp [hx]

/-- A name that is declared has its first rule among those that count. -/
theorem find?_firstOfName (rs : List Rule) (n : Name) :
    (firstOfName rs).find? (·.name = n) = rs.find? (·.name = n) := by
  induction rs with
  | nil => rfl
  | cons x rs ih =>
    rw [firstOfName, List.find?_cons, List.find?_cons, ← ih]
    by_cases hx : x.name = n
    · simp [hx]
    · have hfilter : ∀ ys : List Rule,
          (ys.filter (·.name ≠ x.name)).find? (·.name = n) = ys.find? (·.name = n) := by
        intro ys
        rw [List.find?_filter]
        congr 1
        funext y
        by_cases hy : y.name = n
        · simp [hy, Ne.symm hx]
        · simp [hy]
      simp only [hx, decide_false, hfilter]

/-- Rules that count have names that differ. -/
theorem nodup_firstOfName (rs : List Rule) : ((firstOfName rs).map Rule.name).Nodup := by
  induction rs with
  | nil => exact List.nodup_nil
  | cons x rs ih =>
    rw [firstOfName, List.map_cons, List.nodup_cons]
    refine ⟨fun hmem => ?_, ih.sublist (List.filter_sublist.map _)⟩
    obtain ⟨y, hy, hname⟩ := List.mem_map.1 hmem
    exact of_decide_eq_true (List.mem_filter.1 hy).2 hname

namespace Grammar

variable {g : Grammar} {r : Rule}

/-- A rule that counts is the rule of its name. -/
theorem rule?_of_mem_firstRules (h : r ∈ g.firstRules) : g.rule? r.name = some r := by
  have hfind := find?_firstOfName g.rules r.name
  cases hrule : (firstOfName g.rules).find? (·.name = r.name) with
  | none => simpa using List.find?_eq_none.1 hrule r h
  | some o =>
    rw [hrule] at hfind
    have hname : o.name = r.name := by simpa using List.find?_some hrule
    obtain rfl := List.inj_on_of_nodup_map (nodup_firstOfName g.rules)
      (List.mem_of_find?_eq_some hrule) h hname
    exact hfind.symm

theorem firstRules_eq_nil_iff : g.firstRules = [] ↔ g.rules = [] := by
  unfold firstRules
  cases g.rules with
  | nil => exact Iff.rfl
  | cons r rs => exact iff_of_false (List.cons_ne_nil _ _) (List.cons_ne_nil _ _)

end Grammar

/-! ## 2. The stage of the entities -/

/-- The model that has entities for some rules, and nothing else. -/
def Model.ofRules (rs : List Rule) : Model where
  entities := rs.map Entity.ofRule
  root := rs.head?.map Rule.name

theorem Model.names_ofRules (rs : List Rule) : (ofRules rs).names = rs.map Rule.name := by
  rw [names, ofRules, List.map_map]
  rfl

namespace Build

/-- Looking at one more rule makes its entity if it counts. -/
theorem exists_addRule {done : List Rule} {r : Rule} {d : Draft}
    (hd : d.model = .ofRules (firstOfName done)) :
    ∃ events, addRule r d =
      .ok () { d with model := .ofRules (firstOfName (done ++ [r])), events } := by
  rw [addRule, model_bind, Model.addEntity?, hd, firstOfName_concat]
  by_cases hmem : r.name ∈ (firstOfName done).map Rule.name
  · have hcontains : (Model.ofRules (firstOfName done)).contains (Entity.ofRule r).name = true := by
      rw [Model.contains_iff, Model.names_ofRules]
      exact hmem
    rw [if_pos hmem, if_pos hcontains, ← hd]
    exact ⟨_, rfl⟩
  · have hcontains : ¬ (Model.ofRules (firstOfName done)).contains (Entity.ofRule r).name := by
      rw [Model.contains_iff, Model.names_ofRules]
      exact hmem
    rw [if_neg hmem, if_neg hcontains]
    have hadded : { Model.ofRules (firstOfName done) with
        entities := (Model.ofRules (firstOfName done)).entities ++ [Entity.ofRule r],
        root := (Model.ofRules (firstOfName done)).root.or (some (Entity.ofRule r).name) } =
        Model.ofRules (firstOfName done ++ [r]) := by
      unfold Model.ofRules
      simp only [List.map_append]
      cases firstOfName done <;> rfl
    exact ⟨d.events, by rw [← hadded]; rfl⟩

/-- The stage of the entities makes those of the rules that count. -/
theorem exists_skeleton (g : Grammar) (d : Draft) :
    ∃ events, skeleton g d = .ok () { d with model := .ofRules g.firstRules, events } := by
  have hrules : Ensures (skeleton g) d (fun _ => False) fun _ d' =>
      ∃ events, d' = { d with model := .ofRules g.firstRules, events } := by
    rw [skeleton, ensures_bind, ensures_setModel]
    refine ensures_forM (I := fun done d' =>
      ∃ events, d' = { d with model := .ofRules (firstOfName done), events }) ?_ ⟨d.events, rfl⟩
    rintro done r rest _ _ ⟨events, rfl⟩
    let next : Draft := { d with model := .ofRules (firstOfName done), events }
    have hnext : next.model = .ofRules (firstOfName done) := rfl
    obtain ⟨events', hadded⟩ := exists_addRule (r := r) hnext
    unfold Ensures
    rw [hadded]
    exact ⟨events', rfl⟩
  unfold Ensures at hrules
  cases hrun : skeleton g d with
  | error stop d' => rw [hrun] at hrules; exact hrules.elim
  | ok _ d' =>
    rw [hrun] at hrules
    obtain ⟨events, rfl⟩ := hrules
    exact ⟨events, rfl⟩

end Build

end Ebnf
