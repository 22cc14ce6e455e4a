import Mathlib.Data.List.Basic
import Ebnf.Build.Body
import Ebnf.Reading.Program

/-!
# The plan of a rule

What a rule describes, apart from the arenas it is laid down in: a tree with one leaf for each token
that is read, marked with how often it is read and with the name of its property. Chains are flat,
groups are gone, and options and repetitions are marks on what they hold.

* `Plan`: the trees, with the number of their actions (`Plan.size`), the names asked for by their
  leaves (`Plan.slots`, `Plan.fillers`) and the rules they refer to (`Plan.references`);
* `Expr.plan`: the plan of an expression, in which whatever has parts has two at least
  (`Expr.forked_plan`);
* `Expr.chainInduction`: induction over an expression that takes a chain apart in one step, as the
  plan and the actions do.
-/

namespace Ebnf

open Build (Place literalName? labelOr)

/-! ## 1. Plans -/

/-- What a leaf of a plan reads. -/
inductive Symbol where
  /-- A fixed text, or for a witness the fact that it was there. -/
  | literal (text : String) (witness : Bool)
  /-- A text that a pattern describes. -/
  | pattern (source : String)
  /-- An instance of another entity. -/
  | reference (target : Name)
deriving DecidableEq, Repr

namespace Symbol

/-- The action kind of a leaf. -/
def kind : Symbol → ActionKind
  | literal text _ => .literal text
  | pattern source => .pattern source
  | reference target => .entity target

/-- Whether the leaf only tells that its text was there. -/
def isWitness : Symbol → Bool
  | literal _ witness => witness
  | _ => false

/-- The entity that a leaf reads. -/
def target? : Symbol → Option Name
  | reference target => some target
  | _ => none

end Symbol

/-- What a rule describes. -/
inductive Plan where
  /-- A token, with the name that its property asks for if it has one. -/
  | leaf (mods : Modifiers) (symbol : Symbol) (slot : Option Name)
  /-- Several parts: a choice between them, or all of them in order. -/
  | node (mods : Modifiers) (choice : Bool) (parts : List Plan)

namespace Plan

/-- How often the whole is read. -/
def mods : Plan → Modifiers
  | leaf mods _ _ => mods
  | node mods _ _ => mods

/-- The plan with other marks on the whole. -/
def withMods (f : Modifiers → Modifiers) : Plan → Plan
  | leaf mods symbol slot => leaf (f mods) symbol slot
  | node mods choice parts => node (f mods) choice parts

mutual

/-- The number of actions of a plan. -/
def size : Plan → Nat
  | leaf _ _ _ => 1
  | node _ _ parts => sizes parts + 1

/-- The number of actions of several plans. -/
def sizes : List Plan → Nat
  | [] => 0
  | p :: ps => p.size + sizes ps

end

mutual

/-- The names that the properties of a plan ask for, in order. -/
def slots : Plan → List Name
  | leaf _ _ slot => slot.toList
  | node _ _ parts => slotsOf parts

/-- The names that the properties of several plans ask for. -/
def slotsOf : List Plan → List Name
  | [] => []
  | p :: ps => p.slots ++ slotsOf ps

end

/-- The number of properties of a plan. -/
def width (p : Plan) : Nat :=
  p.slots.length

/-- A leaf that asks for a name. -/
structure Filler where
  /-- The name it asks for. -/
  name : Name
  /-- What it reads. -/
  symbol : Symbol
  /-- Whether it repeats, or something around it does. -/
  plural : Bool
deriving DecidableEq, Repr

mutual

/-- The leaves that ask for a name, in order. `outer` tells whether something around the plan
    repeats. -/
def fillers (outer : Bool) : Plan → List Filler
  | leaf mods symbol slot =>
    slot.toList.map fun name => { name := name, symbol := symbol, plural := outer || mods.plural }
  | node mods _ parts => fillersOf (outer || mods.plural) parts

/-- The leaves of several plans that ask for a name. -/
def fillersOf (outer : Bool) : List Plan → List Filler
  | [] => []
  | p :: ps => p.fillers outer ++ fillersOf outer ps

end

mutual

/-- The leaves that ask for a name ask for the names of the plan. -/
theorem map_name_fillers (outer : Bool) :
    ∀ p : Plan, (p.fillers outer).map Filler.name = p.slots
  | leaf _ _ slot => by cases slot <;> rfl
  | node mods _ parts => map_name_fillersOf (outer || mods.plural) parts

theorem map_name_fillersOf (outer : Bool) :
    ∀ ps : List Plan, (fillersOf outer ps).map Filler.name = slotsOf ps
  | [] => rfl
  | p :: ps => by
    rw [fillersOf, List.map_append, map_name_fillers, map_name_fillersOf, slotsOf]

end

theorem length_fillers (outer : Bool) (p : Plan) : (p.fillers outer).length = p.width := by
  rw [width, ← map_name_fillers outer p, List.length_map]

theorem length_fillersOf (outer : Bool) (ps : List Plan) :
    (fillersOf outer ps).length = (slotsOf ps).length := by
  rw [← map_name_fillersOf outer ps, List.length_map]

mutual

/-- Around everything that repeats, every leaf does. -/
theorem plural_of_mem_fillers {f : Filler} :
    ∀ {p : Plan}, f ∈ p.fillers true → f.plural = true
  | leaf _ _ slot, h => by
    cases slot with
    | none => exact absurd h List.not_mem_nil
    | some name => rw [List.mem_singleton.1 h]; rfl
  | node _ _ _, h => plural_of_mem_fillersOf h

theorem plural_of_mem_fillersOf {f : Filler} :
    ∀ {ps : List Plan}, f ∈ fillersOf true ps → f.plural = true
  | [], h => absurd h List.not_mem_nil
  | _ :: _, h => (List.mem_append.1 h).elim plural_of_mem_fillers plural_of_mem_fillersOf

end

mutual

/-- The rules that a plan refers to, in order. -/
def references : Plan → List Name
  | leaf _ symbol _ => symbol.target?.toList
  | node _ _ parts => referencesOf parts

/-- The rules that several plans refer to. -/
def referencesOf : List Plan → List Name
  | [] => []
  | p :: ps => p.references ++ referencesOf ps

end

theorem size_pos (p : Plan) : 0 < p.size := by
  cases p with
  | leaf => exact Nat.one_pos
  | node => exact Nat.succ_pos _

@[simp] theorem size_withMods (f : Modifiers → Modifiers) (p : Plan) :
    (p.withMods f).size = p.size := by
  cases p <;> rfl

@[simp] theorem slots_withMods (f : Modifiers → Modifiers) (p : Plan) :
    (p.withMods f).slots = p.slots := by
  cases p <;> rfl

@[simp] theorem references_withMods (f : Modifiers → Modifiers) (p : Plan) :
    (p.withMods f).references = p.references := by
  cases p <;> rfl

theorem referencesOf_eq_flatMap (ps : List Plan) : referencesOf ps = ps.flatMap references := by
  induction ps with
  | nil => rfl
  | cons p ps ih => rw [referencesOf, List.flatMap_cons, ih]

/-- A plan without anything that can have parts of its own is proved about by itself, and any other
    from its parts. -/
theorem induction {P : Plan → Prop} (leaf : ∀ mods symbol slot, P (.leaf mods symbol slot))
    (node : ∀ mods choice parts, (∀ p ∈ parts, P p) → P (.node mods choice parts)) :
    ∀ p, P p
  | .leaf mods symbol slot => leaf mods symbol slot
  | .node mods choice parts =>
    node mods choice parts fun p _ => induction leaf node p

end Plan

/-! ## 2. The plan of an expression -/

/-- A branch of a chain is no bigger than the chain. -/
theorem Expr.sizeOf_le_of_mem_alternatives {e f : Expr} (h : f ∈ e.alternatives) :
    sizeOf f ≤ sizeOf e := by
  induction e with
  | choice left right ihl ihr =>
    rw [Expr.choice.sizeOf_spec]
    rcases List.mem_append.1 h with h | h
    · have := ihl h
      omega
    · have := ihr h
      omega
  | _ => exact Nat.le_of_eq (congrArg sizeOf (List.mem_singleton.1 h))

/-- A member of a chain is no bigger than the chain. -/
theorem Expr.sizeOf_le_of_mem_members {e f : Expr} (h : f ∈ e.members) : sizeOf f ≤ sizeOf e := by
  induction e with
  | sequence left right ihl ihr =>
    rw [Expr.sequence.sizeOf_spec]
    rcases List.mem_append.1 h with h | h
    · have := ihl h
      omega
    · have := ihr h
      omega
  | _ => exact Nat.le_of_eq (congrArg sizeOf (List.mem_singleton.1 h))

/-- A branch of a choice is smaller than the choice. -/
theorem Expr.sizeOf_lt_of_mem_branches {left right f : Expr}
    (h : f ∈ left.alternatives ++ right.alternatives) :
    sizeOf f < sizeOf (Expr.choice left right) := by
  rw [Expr.choice.sizeOf_spec]
  rcases List.mem_append.1 h with h | h
  · have := Expr.sizeOf_le_of_mem_alternatives h
    omega
  · have := Expr.sizeOf_le_of_mem_alternatives h
    omega

/-- A member of a sequence is smaller than the sequence. -/
theorem Expr.sizeOf_lt_of_mem_parts {left right f : Expr} (h : f ∈ left.members ++ right.members) :
    sizeOf f < sizeOf (Expr.sequence left right) := by
  rw [Expr.sequence.sizeOf_spec]
  rcases List.mem_append.1 h with h | h
  · have := Expr.sizeOf_le_of_mem_members h
    omega
  · have := Expr.sizeOf_le_of_mem_members h
    omega

/-- What holds of a chain whenever it holds of all its parts, and of any other expression whenever
    it holds of what that is made of, holds of every expression. -/
theorem Expr.chainInduction {P : Expr → Prop}
    (choice : ∀ left right, (∀ e ∈ left.alternatives ++ right.alternatives, P e) →
      P (.choice left right))
    (sequence : ∀ left right, (∀ e ∈ left.members ++ right.members, P e) →
      P (.sequence left right))
    (optional : ∀ inner, P inner → P (.optional inner))
    (repetition : ∀ inner, P inner → P (.repetition inner))
    (group : ∀ inner, P inner → P (.group inner))
    (reference : ∀ label target, P (.reference label target))
    (literal : ∀ label text, P (.literal label text))
    (pattern : ∀ label source, P (.pattern label source)) (e : Expr) : P e := by
  match e with
  | .choice left right =>
    exact choice left right fun f _ =>
      chainInduction choice sequence optional repetition group reference literal pattern f
  | .sequence left right =>
    exact sequence left right fun f _ =>
      chainInduction choice sequence optional repetition group reference literal pattern f
  | .optional inner =>
    exact optional inner
      (chainInduction choice sequence optional repetition group reference literal pattern inner)
  | .repetition inner =>
    exact repetition inner
      (chainInduction choice sequence optional repetition group reference literal pattern inner)
  | .group inner =>
    exact group inner
      (chainInduction choice sequence optional repetition group reference literal pattern inner)
  | .reference label target => exact reference label target
  | .literal label text => exact literal label text
  | .pattern label source => exact pattern label source
termination_by sizeOf e
decreasing_by
  · exact Expr.sizeOf_lt_of_mem_branches ‹_›
  · exact Expr.sizeOf_lt_of_mem_parts ‹_›
  all_goals simp

/-- The plan of an expression that stands at the given place in the rule of an entity. -/
def Expr.plan [Unicode.Xid] (entity : Name) (place : Place) : Expr → Plan
  | .choice left right =>
    .node ⟨false, false⟩ true ((left.alternatives ++ right.alternatives).attach.map
      fun ⟨e, _⟩ => e.plan entity place.branch)
  | .sequence left right =>
    .node ⟨false, false⟩ false ((left.members ++ right.members).attach.map
      fun ⟨e, _⟩ => e.plan entity place.nested)
  | .optional inner =>
    (inner.plan entity place.branch).withMods fun mods => { mods with optional := true }
  | .repetition inner =>
    (inner.plan entity place.nested).withMods fun mods => { mods with plural := true }
  | .group inner => inner.plan entity place
  | .reference label target =>
    .leaf ⟨false, false⟩ (.reference target) (some (labelOr label target))
  | .literal label text =>
    let slot := literalName? entity label text place
    .leaf ⟨false, false⟩ (.literal text (slot.isSome && place.optional)) slot
  | .pattern label source =>
    .leaf ⟨false, false⟩ (.pattern source) (some (labelOr label entity))
termination_by e => sizeOf e
decreasing_by
  · exact Expr.sizeOf_lt_of_mem_branches ‹_›
  · exact Expr.sizeOf_lt_of_mem_parts ‹_›
  all_goals simp

variable {entity : Name} {place : Place}

/-- The plan of a choice has the plans of its branches as parts. -/
theorem Expr.plan_choice [Unicode.Xid] (left right : Expr) :
    (Expr.choice left right).plan entity place =
      .node ⟨false, false⟩ true
        ((left.alternatives ++ right.alternatives).map (Expr.plan entity place.branch)) := by
  rw [Expr.plan]
  congr 1
  exact List.attach_map_val (f := Expr.plan entity place.branch)

/-- The plan of a sequence has the plans of its members as parts. -/
theorem Expr.plan_sequence [Unicode.Xid] (left right : Expr) :
    (Expr.sequence left right).plan entity place =
      .node ⟨false, false⟩ false
        ((left.members ++ right.members).map (Expr.plan entity place.nested)) := by
  rw [Expr.plan]
  congr 1
  exact List.attach_map_val (f := Expr.plan entity place.nested)

/-! ## 3. References -/

/-- A chain refers to what its branches refer to, in their order. -/
theorem Expr.flatMap_references_alternatives (e : Expr) :
    e.alternatives.flatMap Expr.references = e.references := by
  induction e with
  | choice left right ihl ihr =>
    rw [Expr.alternatives, List.flatMap_append, ihl, ihr, Expr.references]
  | _ => exact List.flatMap_singleton ..

/-- A chain refers to what its members refer to, in their order. -/
theorem Expr.flatMap_references_members (e : Expr) :
    e.members.flatMap Expr.references = e.references := by
  induction e with
  | sequence left right ihl ihr =>
    rw [Expr.members, List.flatMap_append, ihl, ihr, Expr.references]
  | _ => exact List.flatMap_singleton ..

/-- A plan refers to the rules that its expression refers to. -/
theorem Expr.references_plan [Unicode.Xid] (e : Expr) :
    ∀ place, (e.plan entity place).references = e.references := by
  have hparts : ∀ (es : List Expr) (place : Place),
      (∀ e ∈ es, ∀ place, (e.plan entity place).references = e.references) →
      Plan.referencesOf (es.map (Expr.plan entity place)) = es.flatMap Expr.references := by
    intro es place h
    rw [Plan.referencesOf_eq_flatMap, List.flatMap_map]
    exact List.flatMap_congr fun e he => h e he place
  induction e using Expr.chainInduction with
  | choice left right ih =>
    intro place
    rw [Expr.plan_choice, Plan.references, hparts _ _ ih, List.flatMap_append,
      Expr.flatMap_references_alternatives, Expr.flatMap_references_alternatives, Expr.references]
  | sequence left right ih =>
    intro place
    rw [Expr.plan_sequence, Plan.references, hparts _ _ ih, List.flatMap_append,
      Expr.flatMap_references_members, Expr.flatMap_references_members, Expr.references]
  | optional inner ih =>
    intro place
    rw [Expr.plan, Plan.references_withMods, ih, Expr.references]
  | repetition inner ih =>
    intro place
    rw [Expr.plan, Plan.references_withMods, ih, Expr.references]
  | group inner ih =>
    intro place
    rw [Expr.plan, ih, Expr.references]
  | reference label target => intro place; rw [Expr.plan]; rfl
  | literal label text => intro place; rw [Expr.plan]; rfl
  | pattern label source => intro place; rw [Expr.plan]; rfl

/-! ## 4. Chains have several parts -/

theorem Expr.alternatives_ne_nil (e : Expr) : e.alternatives ≠ [] := by
  induction e with
  | choice left right ihl _ => exact List.append_ne_nil_of_left_ne_nil ihl _
  | _ => exact List.cons_ne_nil _ _

theorem Expr.members_ne_nil (e : Expr) : e.members ≠ [] := by
  induction e with
  | sequence left right ihl _ => exact List.append_ne_nil_of_left_ne_nil ihl _
  | _ => exact List.cons_ne_nil _ _

/-- Everything in the plan that has parts has two at least. -/
inductive Plan.Forked : Plan → Prop where
  | leaf (mods : Modifiers) (symbol : Symbol) (slot : Option Name) :
    Forked (.leaf mods symbol slot)
  | node (mods : Modifiers) (choice : Bool) {parts : List Plan} (hparts : 2 ≤ parts.length)
    (h : ∀ p ∈ parts, Forked p) : Forked (.node mods choice parts)

theorem Plan.Forked.withMods {p : Plan} (h : p.Forked) (f : Modifiers → Modifiers) :
    (p.withMods f).Forked := by
  cases h with
  | leaf mods symbol slot => exact .leaf _ _ _
  | node mods choice hparts h => exact .node _ _ hparts h

/-- A chain of a rule has one part at least on either side. -/
theorem Expr.forked_plan [Unicode.Xid] (e : Expr) : ∀ place, (e.plan entity place).Forked := by
  have hnode : ∀ (choice : Bool) (es es' : List Expr) (place : Place), es ≠ [] → es' ≠ [] →
      (∀ e ∈ es ++ es', ∀ place, (e.plan entity place).Forked) →
      (Plan.node ⟨false, false⟩ choice ((es ++ es').map (Expr.plan entity place))).Forked := by
    intro choice es es' place hne hne' h
    refine .node _ _ ?_ fun p hp => ?_
    · have hpos := List.length_pos_of_ne_nil hne
      have hpos' := List.length_pos_of_ne_nil hne'
      rw [List.length_map, List.length_append]
      omega
    · obtain ⟨e, he, rfl⟩ := List.mem_map.1 hp
      exact h e he place
  induction e using Expr.chainInduction with
  | choice left right ih =>
    intro place
    rw [Expr.plan_choice]
    exact hnode _ _ _ _ left.alternatives_ne_nil right.alternatives_ne_nil ih
  | sequence left right ih =>
    intro place
    rw [Expr.plan_sequence]
    exact hnode _ _ _ _ left.members_ne_nil right.members_ne_nil ih
  | optional inner ih => intro place; rw [Expr.plan]; exact (ih _).withMods _
  | repetition inner ih => intro place; rw [Expr.plan]; exact (ih _).withMods _
  | group inner ih => intro place; rw [Expr.plan]; exact ih place
  | reference label target => intro place; rw [Expr.plan]; exact .leaf _ _ _
  | literal label text => intro place; rw [Expr.plan]; exact .leaf _ _ _
  | pattern label source => intro place; rw [Expr.plan]; exact .leaf _ _ _

end Ebnf
