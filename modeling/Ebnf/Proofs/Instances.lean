import Ebnf.Proofs.Typing

/-!
# The instances in a result

Every instance that occurs in a result was read for its entity at some place and depth, and its
entity is not virtual: of a virtual entity only the value is kept for which it stands.

* `Program.Gives`: an instance was read for its entity;
* `Program.Made.instance_of_read`: so was every instance in a result.
-/

namespace Ebnf

/-! ## 1. What is read for an entity -/

/-- An instance was read for its entity, at some place and depth. -/
def Program.Gives (p : Program) (src : Source) (x : Name) (fields : List (Name × Value)) : Prop :=
  ∃ depth s t, p.entity src depth x s = .ok (some { entity := x, fields := fields }) t

/-- Every instance that is part of a value was read for its entity, which is not virtual. -/
def Program.Accounts (p : Program) (m : Model) (src : Source) (w : Value) : Prop :=
  ∀ x fields, Value.Inside (.node x fields) w → m.isVirtual x = .ok false ∧ p.Gives src x fields

variable {g : Grammar} {engine : Engine} {m : Model} {config : ReadConfig} {p : Program}
  {patterns : Patterns} {src : Source}

namespace Program.Accounts

/-- A text or a flag has no instances in it. -/
theorem of_own {symbol : Symbol} {v : Value} (h : symbol.Gives (fun _ _ => False) v) :
    p.Accounts m src v := by
  intro x fields hinside
  cases symbol with
  | literal text witness =>
    cases witness with
    | true => obtain ⟨b, rfl⟩ := h; cases hinside
    | false => obtain ⟨s, rfl⟩ := h; cases hinside
  | pattern source => obtain ⟨s, rfl⟩ := h; cases hinside
  | reference target => exact h.elim

theorem list {items : List Value} (h : ∀ v ∈ items, p.Accounts m src v) :
    p.Accounts m src (.list items) := by
  intro x fields hinside
  cases hinside with
  | item hmem hin => exact h _ hmem x fields hin

/-- An instance of an entity that is not virtual, with fields that are accounted for. -/
theorem node {n : Node} (hvirtual : m.isVirtual n.entity = .ok false)
    (hgives : p.Gives src n.entity n.fields)
    (hfields : ∀ key w, (key, w) ∈ n.fields → p.Accounts m src w) :
    p.Accounts m src n.toValue := by
  intro x fields hinside
  cases hinside with
  | self => exact ⟨hvirtual, hgives⟩
  | field hmem hin => exact hfields _ _ hmem x fields hin

end Program.Accounts

/-- The fields of a node hold what was recorded for them, or a flag. -/
theorem mem_assemble {name key : Name} {fields : List Field} {out : Assignments} {w : Value}
    (h : (key, w) ∈ (assemble name fields out).fields) :
    ∃ (place : Nat) (f : Field), fields[place]? = some f ∧ f.name = key ∧
      f.value? place out = some w := by
  rcases mem_fillFields fields 0 _ h with hnone | ⟨place, f, hf, hname, hvalue⟩
  · exact absurd hnone List.not_mem_nil
  · exact ⟨place, f, hf, hname, Nat.zero_add place ▸ hvalue⟩

/-- What is found under a key is listed there. -/
theorem Ordered.mem_of_get? {α : Type} {vs : Ordered α} {key : Name} {v : α}
    (h : Ordered.get? vs key = some v) : (key, v) ∈ vs := by
  obtain ⟨before, after, rfl, _⟩ := List.lookup_eq_some_iff.1 h
  exact List.mem_append_right _ List.mem_cons_self

/-- What is recorded for a field was recorded by the match. -/
theorem exists_mem_of_mem_valuesAt {place : Nat} {out : Assignments} {v : Value}
    (h : v ∈ valuesAt place out) : (.field place, v) ∈ out := by
  obtain ⟨⟨destination, v⟩, hentry, rfl⟩ := List.mem_map.1 h
  obtain ⟨hmem, hdest⟩ := List.mem_filter.1 hentry
  rwa [← of_decide_eq_true hdest]

/-- A node whose recorded values are accounted for has fields that are. -/
theorem Program.Accounts.assemble {name key : Name} {fields : List Field} {out : Assignments}
    {w : Value} (h : ∀ entry ∈ out, p.Accounts m src entry.2)
    (hfield : (key, w) ∈ (Ebnf.assemble name fields out).fields) : p.Accounts m src w := by
  obtain ⟨place, f, _, _, hvalue⟩ := mem_assemble hfield
  rcases Field.of_value? hvalue with ⟨_, rfl⟩ | ⟨_, hv | ⟨_, rfl⟩⟩
  · exact .list fun v hv => h _ (exists_mem_of_mem_valuesAt hv)
  · exact h _ (exists_mem_of_mem_valuesAt hv)
  · have hown : (Symbol.literal "" true).Gives (fun _ _ => False) (.flag false) := ⟨false, rfl⟩
    exact .of_own hown

/-- What is read for an entity is a node of it. -/
theorem Program.entity_of_entity {depth : Nat} {name : Name} {s t : RunState} {n : Node}
    (h : p.entity src depth name s = .ok (some n) t) : n.entity = name := by
  rw [p.entity_eq_collect] at h
  obtain ⟨out, u, _, hnext⟩ := found_of_bind h fun _ => rfl
  cases hproc : p.procedure? name with
  | none => simp only [hproc] at hnext; cases hnext
  | some proc =>
    simp only [hproc] at hnext
    obtain ⟨fields, v, _, hlast⟩ := bind_eq_ok.1 hnext
    cases hlast
    exact entity_fillFields fields 0 _

/-- What a reference gives is the instance that was read, or for a virtual entity the value of its
    first field, if it has one. -/
theorem Program.Made.inner_eq_ok [Unicode.Xid] (hmade : p.Made engine m config patterns)
    (hreached : Build.Reached g m True) {depth : Nat} {target : Name} {s t : RunState}
    {value : Option Value} (h : p.inner src depth target s = .ok (some value) t) :
    ∃ n, p.entity src depth target s = .ok (some n) t ∧ n.entity = target ∧
      ((m.isVirtual target = .ok true ∧ value = n.firstValue?) ∨
        (m.isVirtual target = .ok false ∧ value = some n.toValue)) := by
  obtain ⟨n, u, hn, hnext⟩ := found_of_bind h fun _ => rfl
  obtain rfl := Program.entity_of_entity hn
  obtain ⟨b, hb⟩ := hreached.isVirtual_ok n.entity
  obtain ⟨found, v, hfound, hlast⟩ := bind_eq_ok.1 hnext
  rw [hmade.nodeValue_eq hb] at hfound
  cases hfound
  cases hlast
  cases b with
  | true => exact ⟨n, hn, rfl, .inl ⟨hb, rfl⟩⟩
  | false => exact ⟨n, hn, rfl, .inr ⟨hb, rfl⟩⟩

/-- What an entity is read as was put together from what its match recorded. -/
theorem Program.Made.of_entity [Unicode.Xid] (hmade : p.Made engine m config patterns)
    (hreached : Build.Reached g m True) {site : Name → Site} (hsited : m.Sited site m.names)
    {depth : Nat} {name : Name} {s t : RunState} {n : Node}
    (h : p.entity src depth name s = .ok (some n) t) :
    ∃ below e, ∃ proc : Procedure, ∃ r fields u out, depth = below + 1 ∧ m.entity? name = some e ∧
      p.collect src depth name s = .ok (some out) t ∧
      proc.Of g m patterns e (site e.name) r fields ∧
      ((site e.name).plan.op patterns (site e.name).dest (site e.name).property).run src
        (p.inner src below) u = .ok (some out) t ∧ n = assemble name fields out := by
  rw [p.entity_eq_collect] at h
  obtain ⟨out, v, hcollect, hnext⟩ := found_of_bind h fun _ => rfl
  obtain ⟨below, e, proc, r, fields, u, hbelow, he, hproc, hof, hrun⟩ :=
    hmade.of_collect hreached hsited hcollect
  simp only [hproc, hof.fields_eq] at hnext
  cases hnext
  exact ⟨below, e, proc, r, fields, u, out, hbelow, he, hcollect, hof, hrun, rfl⟩

/-- Instances in the fields of what is read for an entity are accounted for. -/
theorem Program.Made.accounts_entity [Unicode.Xid] (hmade : p.Made engine m config patterns)
    (hreached : Build.Reached g m True) (depth : Nat) :
    ∀ name s n t, p.entity src depth name s = .ok (some n) t →
      ∀ key w, (key, w) ∈ n.fields → p.Accounts m src w := by
  obtain ⟨site, hsited⟩ := hreached.bodies trivial
  -- what an entity refers to is read at a smaller depth
  induction depth with
  | zero => exact fun name s n t h => by cases h
  | succ depth ih =>
    intro name s n t h key w hfield
    obtain ⟨below, e, proc, r, fields, u, out, hbelow, _, _, _, hrun, rfl⟩ :=
      hmade.of_entity hreached hsited h
    obtain rfl := Nat.succ.inj hbelow
    have hgiven : Plan.Given (p.inner src depth) fun _ v => p.Accounts m src v := by
      intro target s' found t' hfound v hv
      subst hv
      obtain ⟨n', hn', rfl, ⟨_, hfirst⟩ | ⟨hvirtual, hnode⟩⟩ := hmade.inner_eq_ok hreached hfound
      · obtain ⟨entry, hentry, rfl⟩ := Option.map_eq_some_iff.1 hfirst.symm
        exact ih _ s' n' t' hn' _ _ (List.mem_of_mem_head? hentry)
      · obtain rfl := Option.some.inj hnode
        exact .node hvirtual ⟨depth, s', t', hn'⟩ (ih _ s' n' t' hn')
    have hout := (Plan.tally_run (D := fun _ => false) hgiven (site e.name).plan
      (site e.name).property (fun _ _ _ hD => by contradiction) u out t hrun).1
    refine .assemble (fun entry hentry => ?_) hfield
    obtain ⟨_, symbol, _, _, hgives⟩ := hout entry hentry
    rcases hgives.own_or_reference with hown | ⟨_, _, haccounts⟩
    · exact .of_own hown
    · exact haccounts

/-! ## 2. Results -/

/-- The root is not virtual. -/
theorem Model.isVirtual_root {name : Name} (h : m.root = some name) :
    m.isVirtual name = .ok false := by
  rw [Model.isVirtual, if_pos h]
  rfl

/-- Every instance in a result was read for its entity, which is not virtual. -/
theorem Program.Made.instance_of_read [Unicode.Xid] (hmade : p.Made engine m config patterns)
    (hreached : Build.Reached g m True) {text : String} {node : Node}
    (hread : p.read text = .ok (.ok node)) : p.Accounts m (p.source text) node.toValue := by
  obtain ⟨t, hentity⟩ := Program.entity_of_read hread
  have hname := Program.entity_of_entity hentity
  refine Program.Accounts.node ?_ ?_ (hmade.accounts_entity hreached _ _ _ _ _ hentity)
  · rw [hname]
    exact Model.isVirtual_root hmade.root
  · refine ⟨p.maxDepth + 1, {}, t, ?_⟩
    rw [hname]
    exact hname ▸ hentity

end Ebnf
