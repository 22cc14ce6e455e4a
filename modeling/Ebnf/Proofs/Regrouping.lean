import Mathlib
import Ebnf.Proofs.Simulation
import Ebnf.Proofs.StoredRules

/-!
# Chains and groups

Which way the chains of a rule lean makes no difference to the model, and neither does a group,
unless it holds a chain apart from a longer one of its kind that it stands in. Grammars that differ
in that only have the same model but for the rules it keeps, or none for the same reason.

* `Expr.Regrouped`: expressions that differ in how their chains lean and in groups that hold nothing
  apart;
* `Expr.Regrouped.map_parts`: what they are made of makes the same actions and properties;
* `models_regrouped`: so their grammars have the same model.
-/

namespace Ebnf

/-! ## 1. Chains -/

/-- A kind of chain. -/
inductive Chain where
  /-- One of several. -/
  | choice
  /-- One after the other. -/
  | sequence
deriving DecidableEq, Repr

namespace Expr

/-- What an expression adds to the chain that it stands in directly, if it stands in one. -/
def parts : Option Chain → Expr → List Expr
  | none, e => [e]
  | some .choice, e => e.alternatives
  | some .sequence, e => e.members

/-- Whether an expression goes on with the chain that it stands in directly. -/
def continues (around : Option Chain) : Expr → Bool
  | .choice _ _ => around = some .choice
  | .sequence _ _ => around = some .sequence
  | _ => false

theorem continues_choice {around : Option Chain} (h : around ≠ some .choice) (left right : Expr) :
    (Expr.choice left right).continues around = false :=
  decide_eq_false h

theorem continues_sequence {around : Option Chain} (h : around ≠ some .sequence)
    (left right : Expr) : (Expr.sequence left right).continues around = false :=
  decide_eq_false h

/-- An expression that does not go on with a chain is one part of it. -/
theorem parts_of_continues_eq_false {around : Option Chain} {e : Expr}
    (h : e.continues around = false) : e.parts around = [e] := by
  cases around with
  | none => rfl
  | some chain =>
    cases e <;> cases chain <;> first | rfl | contradiction

/-- Two expressions that differ in how their chains lean, and in groups that do not hold a chain
    apart from one of the same kind that they stand in directly. The chain around the two is
    given. -/
inductive Regrouped : Option Chain → Expr → Expr → Prop where
  | refl (around : Option Chain) (e : Expr) : Regrouped around e e
  | symm {around : Option Chain} {e e' : Expr} (h : Regrouped around e e') :
    Regrouped around e' e
  | trans {around : Option Chain} {e e' e'' : Expr} (h : Regrouped around e e')
    (h' : Regrouped around e' e'') : Regrouped around e e''
  | assoc_choice (around : Option Chain) (a b c : Expr) :
    Regrouped around (.choice (.choice a b) c) (.choice a (.choice b c))
  | assoc_sequence (around : Option Chain) (a b c : Expr) :
    Regrouped around (.sequence (.sequence a b) c) (.sequence a (.sequence b c))
  | drop_group {around : Option Chain} {e : Expr} (h : e.continues around = false) :
    Regrouped around (.group e) e
  | choice (around : Option Chain) {left left' right right' : Expr}
    (hleft : Regrouped (some .choice) left left')
    (hright : Regrouped (some .choice) right right') :
    Regrouped around (.choice left right) (.choice left' right')
  | sequence (around : Option Chain) {left left' right right' : Expr}
    (hleft : Regrouped (some .sequence) left left')
    (hright : Regrouped (some .sequence) right right') :
    Regrouped around (.sequence left right) (.sequence left' right')
  | optional (around : Option Chain) {inner inner' : Expr} (h : Regrouped none inner inner') :
    Regrouped around (.optional inner) (.optional inner')
  | repetition (around : Option Chain) {inner inner' : Expr} (h : Regrouped none inner inner') :
    Regrouped around (.repetition inner) (.repetition inner')
  | group (around : Option Chain) {inner inner' : Expr} (h : Regrouped none inner inner') :
    Regrouped around (.group inner) (.group inner')

end Expr

/-- Two rules of the same name that differ in how their chains lean and in groups that hold nothing
    apart. -/
structure Rule.Regrouped (r r' : Rule) : Prop where
  name : r.name = r'.name
  body : r.body.Regrouped none r'.body

/-! ## 2. What they are made of -/

section

open Build (Place compile addNode compile_choice compile_sequence)

variable {entity : Name}

/-- Steps that are the same one by one are the same in a row. -/
theorem mapM_eq_of_map_eq {α β : Type} {f : α → Build β} {xs ys : List α}
    (h : xs.map f = ys.map f) : xs.mapM f = ys.mapM f := by
  have hmap : ∀ zs : List α, zs.mapM f = (zs.map f).mapM id := by
    intro zs
    rw [List.mapM_map]
    rfl
  rw [hmap, hmap, h]

theorem compile_choice_congr [Unicode.Xid] {place : Place} {left left' right right' : Expr}
    (h : (left.alternatives ++ right.alternatives).map (compile entity place.branch) =
      (left'.alternatives ++ right'.alternatives).map (compile entity place.branch)) :
    compile entity place (.choice left right) = compile entity place (.choice left' right') := by
  rw [compile_choice, compile_choice, mapM_eq_of_map_eq h]

theorem compile_sequence_congr [Unicode.Xid] {place : Place} {left left' right right' : Expr}
    (h : (left.members ++ right.members).map (compile entity place.nested) =
      (left'.members ++ right'.members).map (compile entity place.nested)) :
    compile entity place (.sequence left right) =
      compile entity place (.sequence left' right') := by
  rw [compile_sequence, compile_sequence, mapM_eq_of_map_eq h]

/-- Expressions that make the same are the same part of a chain that neither goes on with. -/
theorem map_parts_congr [Unicode.Xid] {around : Option Chain} {e e' : Expr}
    (he : e.continues around = false) (he' : e'.continues around = false) {place : Place}
    (h : compile entity place e = compile entity place e') :
    (e.parts around).map (compile entity place) = (e'.parts around).map (compile entity place) := by
  rw [Expr.parts_of_continues_eq_false he, Expr.parts_of_continues_eq_false he', List.map_singleton,
    List.map_singleton, h]

/-- Expressions that differ in leanings and groups add the same actions and properties to the chain
    they stand in. -/
theorem Expr.Regrouped.map_parts [Unicode.Xid] {around : Option Chain} {e e' : Expr}
    (h : e.Regrouped around e') : ∀ place : Place,
      (e.parts around).map (compile entity place) =
        (e'.parts around).map (compile entity place) := by
  induction h with
  | refl around e => exact fun _ => rfl
  | symm _ ih => exact fun place => (ih place).symm
  | trans _ _ ih ih' => exact fun place => (ih place).trans (ih' place)
  | assoc_choice around a b c =>
    intro place
    have hbranches : (Expr.choice a b).alternatives ++ c.alternatives =
        a.alternatives ++ (Expr.choice b c).alternatives := List.append_assoc ..
    by_cases hinside : around = some .choice
    · subst hinside
      exact congrArg (List.map _) hbranches
    · refine map_parts_congr (continues_choice hinside ..) (continues_choice hinside ..) ?_
      exact compile_choice_congr (congrArg (List.map _) hbranches)
  | assoc_sequence around a b c =>
    intro place
    have hmembers : (Expr.sequence a b).members ++ c.members =
        a.members ++ (Expr.sequence b c).members := List.append_assoc ..
    by_cases hinside : around = some .sequence
    · subst hinside
      exact congrArg (List.map _) hmembers
    · refine map_parts_congr (continues_sequence hinside ..) (continues_sequence hinside ..) ?_
      exact compile_sequence_congr (congrArg (List.map _) hmembers)
  | drop_group hfree => exact fun place => map_parts_congr rfl hfree (by rw [compile])
  | @choice around left left' right right' _ _ ihleft ihright =>
    intro place
    have hbranches : ∀ place : Place,
        (left.alternatives ++ right.alternatives).map (compile entity place) =
          (left'.alternatives ++ right'.alternatives).map (compile entity place) := by
      intro place
      rw [List.map_append, List.map_append]
      exact congrArg₂ (· ++ ·) (ihleft place) (ihright place)
    by_cases hinside : around = some .choice
    · subst hinside
      exact hbranches place
    · refine map_parts_congr (continues_choice hinside ..) (continues_choice hinside ..) ?_
      exact compile_choice_congr (hbranches place.branch)
  | @sequence around left left' right right' _ _ ihleft ihright =>
    intro place
    have hmembers : ∀ place : Place,
        (left.members ++ right.members).map (compile entity place) =
          (left'.members ++ right'.members).map (compile entity place) := by
      intro place
      rw [List.map_append, List.map_append]
      exact congrArg₂ (· ++ ·) (ihleft place) (ihright place)
    by_cases hinside : around = some .sequence
    · subst hinside
      exact hmembers place
    · refine map_parts_congr (continues_sequence hinside ..) (continues_sequence hinside ..) ?_
      exact compile_sequence_congr (hmembers place.nested)
  | optional around _ ih =>
    refine fun place => map_parts_congr rfl rfl ?_
    rw [compile, compile, (List.cons.inj (ih place.branch)).1]
  | repetition around _ ih =>
    refine fun place => map_parts_congr rfl rfl ?_
    rw [compile, compile, (List.cons.inj (ih place.nested)).1]
  | group around _ ih =>
    refine fun place => map_parts_congr rfl rfl ?_
    rw [compile, compile, (List.cons.inj (ih place)).1]

/-- Rules that differ in leanings and groups make the same bodies. -/
theorem Rule.Regrouped.body_eq [Unicode.Xid] {r r' : Rule} (h : r.Regrouped r') :
    Build.body r.name r.body = Build.body r'.name r'.body := by
  have hcompile : compile r.name .top r.body = compile r.name .top r'.body :=
    (List.cons.inj (h.body.map_parts .top)).1
  rw [← h.name]
  unfold Build.body
  rw [hcompile]

end

/-! ## 3. Whole grammars -/

/-- Of rules that have the same names one by one, those that count correspond. -/
theorem forall₂_firstOfName {R : Rule → Rule → Prop} (hname : ∀ r r', R r r' → r.name = r'.name)
    {rs rs' : List Rule} (h : List.Forall₂ R rs rs') :
    List.Forall₂ R (firstOfName rs) (firstOfName rs') := by
  induction h with
  | nil => exact .nil
  | @cons r r' _ _ hr _ ih =>
    refine .cons hr (List.rel_filter (fun x x' hx => ?_) ih)
    simp only [hname _ _ hr, hname _ _ hx]

/-- Joined chains have the parts of both, and how chains lean and which groups there are, as long as
    these hold no chain apart from one that it stands in, makes no difference to the model of a
    grammar but for the rules that the model keeps; nor to why there is none. -/
theorem models_regrouped [Unicode.Xid] :
    (∀ e f : Expr, (e.or f).alternatives = e.alternatives ++ f.alternatives) ∧
    (∀ e f : Expr, (e.andThen f).members = e.members ++ f.members) ∧
    ∀ g g' : Grammar, List.Forall₂ Rule.Regrouped g.rules g'.rules →
      Model.ofGrammar g' = (Model.ofGrammar g).map (Model.withRules g'.rule?) := by
  refine ⟨Expr.alternatives_or, Expr.members_andThen, fun g g' h => ?_⟩
  have hfirst : List.Forall₂ Rule.Regrouped g.firstRules g'.firstRules :=
    forall₂_firstOfName (fun _ _ hr => hr.name) h
  exact ofGrammar_of_likewise (hfirst.imp fun r r' hr => ⟨hr.name, hr.body_eq⟩)

namespace Grouped

/-- Lists of words and marks, with groups that hold nothing apart. -/
def grammar : Grammar where
  rules := [
    { name := "list",
      body := .repetition (.group
        (.choice (.group (.reference none "word")) (.reference none "mark"))) },
    { name := "word", body := .group (.group (.literal none "a")) },
    { name := "mark", body := .sequence (.literal none "c") (.group (.literal none "d")) }]

theorem regrouped : List.Forall₂ Rule.Regrouped Sample.grammar.rules grammar.rules := by
  refine .cons ⟨rfl, .repetition none ?_⟩ (.cons ⟨rfl, ?_⟩ (.cons ⟨rfl, ?_⟩ .nil))
  · exact .trans (.choice none (.symm (.drop_group rfl)) (.refl _ _)) (.symm (.drop_group rfl))
  · exact .trans (.symm (.drop_group rfl)) (.symm (.drop_group rfl))
  · exact .sequence none (.refl _ _) (.symm (.drop_group rfl))

/-- A chain that leans to the left. -/
def left : Grammar where
  rules := [
    { name := "x",
      body := .choice (.choice (.literal none "a") (.literal none "b")) (.reference none "y") }]

/-- The same chain leaning to the right, with a group. -/
def right : Grammar where
  rules := [
    { name := "x",
      body := .choice (.literal none "a")
        (.choice (.literal none "b") (.group (.reference none "y"))) }]

theorem leaning : List.Forall₂ Rule.Regrouped left.rules right.rules := by
  refine .cons ⟨rfl, .trans (.assoc_choice none _ _ _) ?_⟩ .nil
  refine .choice none (.refl _ _) (.choice _ (.refl _ _) ?_)
  exact .symm (.drop_group rfl)

end Grouped

/-- Lists have the same model with and without groups, and a rule that is not there is missed in the
    same way whichever way a chain leans. -/
theorem models_regrouped_grouped :
    List.Forall₂ Rule.Regrouped Sample.grammar.rules Grouped.grammar.rules ∧
    Model.ofGrammar Grouped.grammar = .ok (Sample.model.withRules Grouped.grammar.rule?) ∧
    List.Forall₂ Rule.Regrouped Grouped.left.rules Grouped.right.rules ∧
    Model.ofGrammar Grouped.left = .error (.error (.unknownReference "x" "y")) ∧
    Model.ofGrammar Grouped.right = .error (.error (.unknownReference "x" "y")) := by
  obtain ⟨_, _, hsame⟩ := models_regrouped
  have hgrouped := hsame _ _ Grouped.regrouped
  have hleaning := hsame _ _ Grouped.leaning
  have hleft : Model.ofGrammar Grouped.left = .error (.error (.unknownReference "x" "y")) := by
    cbv
  rw [Sample.ofGrammar_eq] at hgrouped
  rw [hleft] at hleaning
  exact ⟨Grouped.regrouped, hgrouped, Grouped.leaning, hleft, hleaning⟩

end Ebnf
