import Mathlib.Data.List.Chain
import Ebnf.Proofs.Collapse
import Ebnf.Proofs.Hierarchy

/-!
# Ways up in any model

A model that was made by hand may note a link on one side only, name entities that are not there, or
lead in circles. To be a special case still means that there is a way up, and a search that looks at
one name a turn finds out in no more turns than there are links, and two. So the circles that
checking a model reports are those there are.

* `Model.Path`: a way up, name by name;
* `Ascent`: the search turn by turn, with its turns counted;
* `Model.cycle_mem_iff`: what checking a model says of circles;
* `isA_finds_paths`: all of it.
-/

namespace Ebnf

open Relation (TransGen ReflTransGen)

namespace Model

variable {m : Model} {x y z : Name} {between : List Name}

/-! ## 1. Ways up, name by name -/

/-- A way from one name up to another, with the names in between: each of them but the last is that
    of an entity, which has the next one among its supers. -/
structure Path (m : Model) (x y : Name) (between : List Name) : Prop where
  known : ∀ n ∈ x :: between, m.contains n = true
  links : (x :: (between ++ [y])).IsChain m.Super

/-- An entity lies on a circle: there is a way from it back to itself that meets no name twice. -/
def OnCycle (m : Model) (n : Name) : Prop :=
  ∃ between, m.Path n n between ∧ (n :: between).Nodup

theorem path_nil : m.Path x y [] ↔ m.Super x y := by
  refine ⟨fun h => List.isChain_pair.1 h.links, fun h => ⟨fun n hn => ?_, List.isChain_pair.2 h⟩⟩
  rw [List.mem_singleton.1 hn]
  exact contains_iff.2 h.mem_names

theorem path_cons : m.Path x y (z :: between) ↔ m.Super x z ∧ m.Path z y between := by
  constructor
  · intro h
    obtain ⟨hlink, hlinks⟩ := List.isChain_cons_cons.1 h.links
    exact ⟨hlink, fun n hn => h.known n (List.mem_cons_of_mem _ hn), hlinks⟩
  · rintro ⟨hlink, h⟩
    refine ⟨fun n hn => ?_, List.isChain_cons_cons.2 ⟨hlink, h.links⟩⟩
    rcases List.mem_cons.1 hn with rfl | hn
    · exact contains_iff.2 hlink.mem_names
    · exact h.known n hn

theorem Path.way : ∀ {between : List Name} {x : Name}, m.Path x y between → TransGen m.Super x y
  | [], _, h => .single (path_nil.1 h)
  | _ :: _, _, h => .head (path_cons.1 h).1 (path_cons.1 h).2.way

/-- A way up goes on from each name that it leads over. -/
theorem Path.from_mem : ∀ {between : List Name} {x : Name}, m.Path x y between → z ∈ between →
    ∃ rest, m.Path z y rest ∧ (z :: rest).Sublist between
  | w :: between, _, h, hz => by
    obtain ⟨_, hrest⟩ := path_cons.1 h
    rcases List.mem_cons.1 hz with rfl | hz
    · exact ⟨between, hrest, .refl _⟩
    · obtain ⟨rest, hpath, hsub⟩ := hrest.from_mem hz
      exact ⟨rest, hpath, hsub.cons w⟩

/-- Where there is a way up there is one that meets no name twice, but for its end perhaps. -/
theorem exists_simple_path (h : TransGen m.Super x y) :
    ∃ between, m.Path x y between ∧ (x :: between).Nodup := by
  induction h using TransGen.head_induction_on with
  | single hlink => exact ⟨[], path_nil.2 hlink, List.nodup_singleton _⟩
  | @head x z hlink _ ih =>
    obtain ⟨between, hpath, hnodup⟩ := ih
    by_cases hmem : x ∈ z :: between
    · -- the way from the next name comes back to this one
      rcases List.mem_cons.1 hmem with rfl | hmem
      · exact ⟨between, hpath, hnodup⟩
      · obtain ⟨rest, hrest, hsub⟩ := hpath.from_mem hmem
        exact ⟨rest, hrest, (hnodup.sublist (List.sublist_cons_self _ _)).sublist hsub⟩
    · exact ⟨z :: between, path_cons.2 ⟨hlink, hpath⟩, List.nodup_cons.2 ⟨hmem, hnodup⟩⟩

/-- One entity is a special case of another where a way leads up to it, name by name. -/
theorem isA_iff_path : m.isA x y = true ↔ ∃ between, m.Path x y between := by
  rw [isA_iff]
  constructor
  · intro hway
    obtain ⟨between, hpath, _⟩ := exists_simple_path hway
    exact ⟨between, hpath⟩
  · rintro ⟨between, hpath⟩
    exact hpath.way

/-- An entity is a special case of itself where it lies on a circle. -/
theorem isA_self_iff : m.isA x x = true ↔ m.OnCycle x := by
  constructor
  · exact fun h => exists_simple_path (isA_iff.1 h)
  · rintro ⟨between, hpath, _⟩
    exact isA_iff.2 hpath.way

end Model

/-! ## 2. The search turn by turn -/

/-- Where a search for the way up to a name stands. -/
structure Ascent where
  /-- The names met as supers. The name that the search starts from is not met by that. -/
  met : List Name
  /-- The names still to be looked at, the next one first. -/
  stack : List Name

namespace Ascent

/-- Looks through the supers of an entity. The goal among them ends the search; one that is met for
    the first time is still to be looked at. -/
def scan (goal : Name) (s : Ascent) : List Name → Option Ascent
  | [] => some s
  | n :: rest =>
    if n = goal then none
    else if n ∈ s.met then scan goal s rest
    else scan goal ⟨n :: s.met, n :: s.stack⟩ rest

/-- One turn of the search: an answer, or where the search goes on. A name that belongs to no entity
    has no supers. -/
def turn (m : Model) (goal : Name) (s : Ascent) : Bool ⊕ Ascent :=
  match s.stack with
  | [] => .inl false
  | name :: rest =>
    match m.entity? name with
    | none => .inr ⟨s.met, rest⟩
    | some e =>
      match scan goal ⟨s.met, rest⟩ e.supers with
      | none => .inl true
      | some s' => .inr s'

/-- The answer of the search, if it comes within a number of turns. -/
def run (m : Model) (goal : Name) : Nat → Ascent → Option Bool
  | 0, _ => none
  | turns + 1, s =>
    match s.turn m goal with
    | .inl answer => some answer
    | .inr s' => run m goal turns s'

/-- All links up in a model, by the names they lead to. -/
def linksUp (m : Model) : List Name :=
  m.entities.flatMap Entity.supers

/-- How many turns there can be still: one for each name on the stack, and one for each link to a
    name that was not met. -/
def left (m : Model) (s : Ascent) : Nat :=
  unseen (linksUp m) s.met + s.stack.length

variable {m : Model} {goal child : Name} {s s' : Ascent} {supers : List Name}

/-! ## 3. One turn -/

theorem scan_eq_none_iff : scan goal s supers = none ↔ goal ∈ supers := by
  induction supers generalizing s with
  | nil => simp [scan]
  | cons n rest ih =>
    rw [scan, List.mem_cons]
    split
    · next heq => exact iff_of_true rfl (.inl heq.symm)
    · next hne =>
      have hrest : goal = n ∨ goal ∈ rest ↔ goal ∈ rest := or_iff_right (Ne.symm hne)
      rw [hrest]
      split
      · exact ih
      · exact ih

/-- What looking through supers leads to: they have all been met, those that were not met before are
    on the stack, and no turns are gained. -/
structure Through (m : Model) (supers : List Name) (s s' : Ascent) : Prop where
  met : ∀ n, n ∈ s'.met ↔ n ∈ s.met ∨ n ∈ supers
  stack : ∀ n, n ∈ s'.stack ↔ n ∈ s.stack ∨ n ∈ supers ∧ n ∉ s.met
  left : s'.left m ≤ s.left m

/-- A super that was met before changes nothing. -/
theorem Through.pass {n : Name} (h : Through m supers s s') (hn : n ∈ s.met) :
    Through m (n :: supers) s s' where
  met := by
    intro k
    rw [h.met, List.mem_cons]
    constructor
    · exact Or.imp_right .inr
    · rintro (hk | rfl | hk)
      · exact .inl hk
      · exact .inl hn
      · exact .inr hk
  stack := by
    intro k
    rw [h.stack, List.mem_cons]
    refine or_congr_right (and_congr_left fun hk => (or_iff_right ?_).symm)
    rintro rfl
    exact hk hn
  left := h.left

/-- A super that is met for the first time is to be looked at. -/
theorem Through.push {n : Name} (h : Through m supers ⟨n :: s.met, n :: s.stack⟩ s')
    (hlink : n ∈ linksUp m) (hn : n ∉ s.met) : Through m (n :: supers) s s' where
  met := by
    intro k
    rw [h.met, List.mem_cons, List.mem_cons, or_assoc, or_left_comm]
  stack := by
    intro k
    rw [h.stack, List.mem_cons, List.mem_cons, List.mem_cons]
    by_cases hk : k = n
    · subst hk
      exact iff_of_true (.inl (.inl rfl)) (.inr ⟨.inl rfl, hn⟩)
    · simp only [hk, false_or]
  left := by
    have hfewer := unseen_lt (fun _ hk => List.mem_cons_of_mem n hk) hlink hn List.mem_cons_self
    have hnext := h.left
    simp only [Ascent.left, List.length_cons] at hnext ⊢
    omega

theorem through_of_scan (hlinks : ∀ n ∈ supers, n ∈ linksUp m)
    (h : scan goal s supers = some s') : Through m supers s s' := by
  induction supers generalizing s with
  | nil =>
    obtain rfl := Option.some.inj h
    refine ⟨fun n => ?_, fun n => ?_, Nat.le_refl _⟩
    · simp
    · simp
  | cons n rest ih =>
    have hrest := fun k hk => hlinks k (List.mem_cons_of_mem n hk)
    rw [scan] at h
    split at h
    · contradiction
    · split at h
      · next hmet => exact (ih hrest h).pass hmet
      · next hfresh => exact (ih hrest h).push (hlinks n List.mem_cons_self) hfresh

/-- What a search keeps: a way of some length leads up to all that it still has to look at, and with
    the rest of what it met it is done. -/
structure Sound (m : Model) (child goal : Name) (s : Ascent) : Prop where
  reached : ∀ n ∈ s.stack, ReflTransGen m.Super child n
  done : ∀ n, n = child ∨ n ∈ s.met → n ∈ s.stack ∨ m.Explored goal s.met n

/-- A search starts with one name to look at, and nothing met. -/
theorem sound_start (m : Model) (child goal : Name) : Sound m child goal ⟨[], [child]⟩ where
  reached := by
    intro n hn
    rw [List.mem_singleton.1 hn]
  done := by
    rintro n (rfl | hn)
    · exact .inl List.mem_cons_self
    · exact absurd hn List.not_mem_nil

/-- A search that has nothing left to look at is right to say no. -/
theorem Sound.isA_eq_false (h : Sound m child goal s) (hstack : s.stack = []) :
    m.isA child goal = false := by
  have hexplored : ∀ n, n = child ∨ n ∈ s.met → m.Explored goal s.met n := by
    intro n hn
    refine (h.done n hn).resolve_left ?_
    rw [hstack]
    exact List.not_mem_nil
  refine Bool.eq_false_iff.2 fun hisA => ?_
  refine (hexplored child (.inl rfl)).no_way (fun k hk => ?_) (Model.isA_iff.1 hisA)
  exact Model.no_way_of_explored (fun n hn => hexplored n (.inr hn)) hk

/-- One that has come to an entity with the goal among its supers is right to say yes. -/
theorem Sound.isA_eq_true {name : Name} {e : Entity} (h : Sound m child goal s)
    (hname : name ∈ s.stack) (he : m.entity? name = some e) (hgoal : goal ∈ e.supers) :
    m.isA child goal = true :=
  Model.isA_iff.2 (.tail' (h.reached name hname) ⟨e, he, hgoal⟩)

/-- A name that belongs to no entity is done with. -/
theorem Sound.pop {name : Name} {rest : List Name} (h : Sound m child goal s)
    (hstack : s.stack = name :: rest) (hnone : m.entity? name = none) :
    Sound m child goal ⟨s.met, rest⟩ where
  reached := fun n hn => h.reached n (hstack ▸ List.mem_cons_of_mem name hn)
  done := by
    intro n hn
    rcases h.done n hn with hmem | hexplored
    · rw [hstack] at hmem
      rcases List.mem_cons.1 hmem with rfl | hmem
      · refine .inr ?_
        rintro k ⟨e, he, _⟩
        rw [hnone] at he
        contradiction
      · exact .inl hmem
    · exact .inr hexplored

/-- An entity is done with once all its supers have been met. -/
theorem Sound.through {name : Name} {rest : List Name} {e : Entity} (h : Sound m child goal s)
    (hstack : s.stack = name :: rest) (he : m.entity? name = some e) (hgoal : goal ∉ e.supers)
    (hthrough : Through m e.supers ⟨s.met, rest⟩ s') : Sound m child goal s' where
  reached := by
    intro n hn
    rcases (hthrough.stack n).1 hn with hn | ⟨hn, _⟩
    · exact h.reached n (hstack ▸ List.mem_cons_of_mem name hn)
    · exact .tail (h.reached name (hstack ▸ List.mem_cons_self)) ⟨e, he, hn⟩
  done := by
    have hmono : ∀ k ∈ s.met, k ∈ s'.met := fun k hk => (hthrough.met k).2 (.inl hk)
    intro n hn
    have hcases : (n = child ∨ n ∈ s.met) ∨ n ∈ e.supers ∧ n ∉ s.met := by
      by_cases hmet : n ∈ s.met
      · exact .inl (.inr hmet)
      · rcases hn with hn | hn
        · exact .inl (.inl hn)
        · exact .inr ⟨((hthrough.met n).1 hn).resolve_left hmet, hmet⟩
    rcases hcases with hold | hfresh
    · rcases h.done n hold with hmem | hexplored
      · rw [hstack] at hmem
        rcases List.mem_cons.1 hmem with rfl | hmem
        · refine .inr ?_
          rintro k ⟨e', he', hk⟩
          obtain rfl := Option.some.inj (he.symm.trans he')
          exact ⟨fun heq => hgoal (heq ▸ hk), fun _ => (hthrough.met k).2 (.inr hk)⟩
        · exact .inl ((hthrough.stack n).2 (.inl hmem))
      · exact .inr (hexplored.mono hmono)
    · exact .inl ((hthrough.stack n).2 (.inr hfresh))

/-- A turn gives the right answer, or leaves one turn less. -/
theorem Sound.turn (h : Sound m child goal s) :
    match s.turn m goal with
    | .inl answer => answer = m.isA child goal
    | .inr s' => Sound m child goal s' ∧ s'.left m < s.left m := by
  cases hstack : s.stack with
  | nil =>
    simp only [Ascent.turn, hstack]
    exact (h.isA_eq_false hstack).symm
  | cons name rest =>
    have hpop : left m ⟨s.met, rest⟩ < s.left m := by
      simp only [left, hstack, List.length_cons]
      omega
    cases he : m.entity? name with
    | none =>
      simp only [Ascent.turn, hstack, he]
      exact ⟨h.pop hstack he, hpop⟩
    | some e =>
      cases hscan : scan goal ⟨s.met, rest⟩ e.supers with
      | none =>
        simp only [Ascent.turn, hstack, he, hscan]
        have hgoal := scan_eq_none_iff.1 hscan
        exact (h.isA_eq_true (hstack ▸ List.mem_cons_self) he hgoal).symm
      | some s' =>
        simp only [Ascent.turn, hstack, he, hscan]
        have hgoal : goal ∉ e.supers := fun hmem => by
          rw [scan_eq_none_iff.2 hmem] at hscan
          contradiction
        have hlinks : ∀ n ∈ e.supers, n ∈ linksUp m := fun n hn =>
          List.mem_flatMap.2 ⟨e, Model.mem_of_entity?_eq_some he, hn⟩
        have hthrough := through_of_scan hlinks hscan
        exact ⟨h.through hstack he hgoal hthrough, Nat.lt_of_le_of_lt hthrough.left hpop⟩

/-! ## 4. All turns -/

/-- With a turn more than there can be the search gives the right answer. -/
theorem Sound.run (turns : Nat) (h : Sound m child goal s) (hturns : s.left m < turns) :
    run m goal turns s = some (m.isA child goal) := by
  induction turns generalizing s with
  | zero => exact absurd hturns (Nat.not_lt_zero _)
  | succ turns ih =>
    have hturn := h.turn
    rw [Ascent.run]
    cases hnext : s.turn m goal with
    | inl answer =>
      rw [hnext] at hturn
      exact congrArg some hturn
    | inr s' =>
      rw [hnext] at hturn
      exact ih hturn.1 (Nat.lt_of_lt_of_le hturn.2 (Nat.le_of_lt_succ hturns))

/-- Two turns more than there are links are enough. -/
theorem run_start (m : Model) (child goal : Name) {turns : Nat}
    (hturns : (linksUp m).length + 2 ≤ turns) :
    run m goal turns ⟨[], [child]⟩ = some (m.isA child goal) := by
  refine (sound_start m child goal).run turns ?_
  rw [left, unseen_nil, List.length_singleton]
  exact hturns

end Ascent

/-! ## 5. What checking a model says -/

/-- What the lists that answer requests in a row hold together is held by one of them. -/
theorem Checked.mem_flatten_iff {α β : Type} {f : α → Checked (List β)} {xs : List α}
    {found : List (List β)} {y : β} (h : xs.mapM f = .ok found) :
    y ∈ found.flatten ↔ ∃ x ∈ xs, ∃ ys, f x = .ok ys ∧ y ∈ ys := by
  have hall := Checked.forall₂_of_mapM h
  rw [List.mem_flatten]
  constructor
  · rintro ⟨ys, hys, hy⟩
    obtain ⟨x, hx, hok⟩ := exists_answer hall.flip hys
    exact ⟨x, hx, ys, hok, hy⟩
  · rintro ⟨x, hx, ys, hok, hy⟩
    obtain ⟨zs, hzs, hok'⟩ := exists_answer hall hx
    obtain rfl := Except.ok.inj (hok.symm.trans hok')
    exact ⟨ys, hzs, hy⟩

namespace Model

variable {m : Model} {n : Name}

/-- A circle is no matter of the root, -/
theorem cycle_notMem_rootIssues (m : Model) : .inheritanceCycle n ∉ m.rootIssues := by
  unfold rootIssues
  cases m.root with
  | none => split <;> simp
  | some root => simp only; split <;> simp

/-- nor of the target of an action, -/
theorem cycle_notMem_targetIssues {a : Action} {found : List Issue}
    (h : m.targetIssues a = .ok found) : .inheritanceCycle n ∉ found := by
  unfold targetIssues at h
  split at h
  · cases h
    exact List.not_mem_nil
  · split at h
    · cases h
      exact List.not_mem_nil
    · split at h
      · cases h
        simp
      · obtain ⟨p, _, h⟩ := Checked.bind_eq_ok.1 h
        cases h
        simp

/-- nor of a listed property, -/
theorem cycle_notMem_propertyIssues {entity key : Name} {id : PropertyId} {found : List Issue}
    (h : m.propertyIssues entity key id = .ok found) : .inheritanceCycle n ∉ found := by
  unfold propertyIssues at h
  obtain ⟨p, _, h⟩ := Checked.bind_eq_ok.1 h
  obtain ⟨isDetached, _, h⟩ := Checked.bind_eq_ok.1 h
  obtain ⟨below, hbelow, h⟩ := Checked.bind_eq_ok.1 h
  cases h
  have hsubs : .inheritanceCycle n ∉ below.flatten := by
    rw [Checked.mem_flatten_iff hbelow]
    rintro ⟨sub, _, part, hsub, hmem⟩
    obtain ⟨q, _, hsub⟩ := Checked.bind_eq_ok.1 hsub
    obtain ⟨isDetached, _, hsub⟩ := Checked.bind_eq_ok.1 hsub
    cases hsub
    split at hmem <;> simp at hmem
  simp only [List.mem_append, hsubs, or_false, not_or]
  constructor <;> split <;> simp

/-- nor of single links. -/
theorem cycle_notMem_edgeIssues (e : Entity) : .inheritanceCycle n ∉ m.edgeIssues e := by
  simp [edgeIssues]

/-- An entity is reported where it lies on a circle. -/
theorem cycle_mem_entityIssues {e : Entity} {found : List Issue}
    (h : m.entityIssues e = .ok found) :
    .inheritanceCycle n ∈ found ↔ n = e.name ∧ m.OnCycle n := by
  unfold entityIssues at h
  obtain ⟨parts, hparts, h⟩ := Checked.bind_eq_ok.1 h
  cases h
  have hproperties : .inheritanceCycle n ∉ parts.flatten := by
    rw [Checked.mem_flatten_iff hparts]
    rintro ⟨entry, _, part, hentry, hmem⟩
    exact cycle_notMem_propertyIssues hentry hmem
  have haction : .inheritanceCycle n ∉
      (if e.action.isNone then [Issue.missingAction e.name] else []) := by
    split <;> simp
  simp only [List.mem_append, haction, hproperties, cycle_notMem_edgeIssues e, false_or]
  rw [← isA_self_iff]
  constructor
  · intro hmem
    split at hmem
    · next hself =>
      obtain rfl := Issue.inheritanceCycle.inj (List.mem_singleton.1 hmem)
      exact ⟨rfl, hself⟩
    · exact absurd hmem List.not_mem_nil
  · rintro ⟨rfl, hself⟩
    rw [if_pos hself]
    exact List.mem_singleton_self _

/-- The circles that checking a model reports are those there are. -/
theorem cycle_mem_issues {report : List Issue} (h : m.issues = .ok report) :
    .inheritanceCycle n ∈ report ↔ m.OnCycle n := by
  unfold issues at h
  obtain ⟨targets, htargets, h⟩ := Checked.bind_eq_ok.1 h
  obtain ⟨parts, hparts, h⟩ := Checked.bind_eq_ok.1 h
  cases h
  have hactions : .inheritanceCycle n ∉ targets.flatten := by
    rw [Checked.mem_flatten_iff htargets]
    rintro ⟨a, _, part, ha, hmem⟩
    exact cycle_notMem_targetIssues ha hmem
  simp only [List.mem_append, cycle_notMem_rootIssues m, hactions, false_or]
  rw [Checked.mem_flatten_iff hparts]
  constructor
  · rintro ⟨e, _, part, he, hmem⟩
    exact ((cycle_mem_entityIssues he).1 hmem).2
  · intro hcycle
    obtain ⟨e, he⟩ := mem_names_iff.1 (mem_names_of_transGen (isA_iff.1 (isA_self_iff.2 hcycle)))
    have hname := name_of_entity?_eq_some he
    have hmem := mem_of_entity?_eq_some he
    obtain ⟨part, _, hpart⟩ := exists_answer (Checked.forall₂_of_mapM hparts) hmem
    exact ⟨e, hmem, part, hpart, (cycle_mem_entityIssues hpart).2 ⟨hname.symm, hcycle⟩⟩

/-! ## 6. Models that can be checked -/

/-- There is a property for each id in range. -/
theorem exists_property {id : PropertyId} (h : id.index < m.properties.size) :
    ∃ p ∈ m.properties, m.property id = .ok p :=
  ⟨_, Array.getElem_mem h, property_eq_ok_iff.2 (Array.getElem?_eq_getElem h)⟩

theorem InRange.isDetached_ok (h : m.InRange) {p : Property} (hp : p ∈ m.properties)
    (id : PropertyId) : ∃ b, m.isDetached id p = .ok b := by
  have hsource := action_eq_ok_iff.2 (Array.getElem?_eq_getElem (h.sources p hp))
  exact ⟨_, Checked.bind_eq_ok.2 ⟨_, hsource, rfl⟩⟩

theorem InRange.targetIssues_ok (h : m.InRange) {a : Action} (ha : a ∈ m.actions) :
    ∃ found, m.targetIssues a = .ok found := by
  unfold targetIssues
  split
  · exact ⟨_, rfl⟩
  · split
    · exact ⟨_, rfl⟩
    · split
      · exact ⟨_, rfl⟩
      · next id hid =>
        obtain ⟨p, _, hproperty⟩ := exists_property (h.links a ha id hid)
        exact ⟨_, Checked.bind_eq_ok.2 ⟨p, hproperty, rfl⟩⟩

theorem InRange.propertyIssues_ok (h : m.InRange) {id : PropertyId}
    (hid : id.index < m.properties.size) (entity key : Name) :
    ∃ found, m.propertyIssues entity key id = .ok found := by
  obtain ⟨p, hp, hproperty⟩ := exists_property hid
  obtain ⟨isDetached, hdetached⟩ := h.isDetached_ok hp id
  obtain ⟨below, hbelow⟩ := Checked.exists_mapM (f := fun sub => do
      let q ← m.property sub
      return if ← m.isDetached sub q then [Issue.detachedProperty entity q.name] else [])
    p.subsumed fun sub hsub => by
      obtain ⟨q, hq, hproperty⟩ := exists_property (h.subsumed p hp sub hsub)
      obtain ⟨isDetached, hdetached⟩ := h.isDetached_ok hq sub
      exact ⟨_, Checked.bind_eq_ok.2 ⟨q, hproperty,
        Checked.bind_eq_ok.2 ⟨isDetached, hdetached, rfl⟩⟩⟩
  exact ⟨_, Checked.bind_eq_ok.2 ⟨p, hproperty, Checked.bind_eq_ok.2
    ⟨isDetached, hdetached, Checked.bind_eq_ok.2 ⟨below, hbelow, rfl⟩⟩⟩⟩

theorem InRange.entityIssues_ok (h : m.InRange) {e : Entity} (he : e ∈ m.entities) :
    ∃ found, m.entityIssues e = .ok found := by
  obtain ⟨parts, hparts⟩ := Checked.exists_mapM
    (f := fun entry => m.propertyIssues e.name entry.1 entry.2) e.properties fun entry hentry =>
      h.propertyIssues_ok (h.listed e he entry.2 (List.mem_map_of_mem hentry)) e.name entry.1
  exact ⟨_, Checked.bind_eq_ok.2 ⟨parts, hparts, rfl⟩⟩

/-- A model whose ids lead somewhere can be checked. -/
theorem InRange.issues_ok (h : m.InRange) : ∃ report, m.issues = .ok report := by
  obtain ⟨targets, htargets⟩ := Checked.exists_mapM m.actions.toList fun a ha =>
    h.targetIssues_ok (Array.mem_toList_iff.1 ha)
  obtain ⟨parts, hparts⟩ := Checked.exists_mapM m.entities fun e he => h.entityIssues_ok he
  exact ⟨_, Checked.bind_eq_ok.2 ⟨targets, htargets, Checked.bind_eq_ok.2 ⟨parts, hparts, rfl⟩⟩⟩

end Model

/-- In any model, the search for the way from one name up to another ends within two turns more than
    there are links, and says whether there is one. A model whose ids lead somewhere can be checked,
    and what is said of an entity then is that it is a special case of itself if and only if it lies
    on a circle. -/
theorem isA_finds_paths (m : Model) :
    (∀ child parent turns, (Ascent.linksUp m).length + 2 ≤ turns →
      Ascent.run m parent turns ⟨[], [child]⟩ = some (m.isA child parent)) ∧
    (∀ child parent, m.isA child parent = true ↔ ∃ between, m.Path child parent between) ∧
    (m.InRange → ∃ report, m.issues = .ok report) ∧
    ∀ report, m.issues = .ok report → ∀ n, .inheritanceCycle n ∈ report ↔ m.OnCycle n :=
  ⟨fun child parent _ hturns => Ascent.run_start m child parent hturns,
    fun _ _ => Model.isA_iff_path, Model.InRange.issues_ok,
    fun _ hreport _ => Model.cycle_mem_issues hreport⟩

namespace Tangled

/-- Three entities in a circle and a fourth below them, whose links no super knows of. One of them
    has a super that is not there. -/
def model : Model where
  entities :=
    [{ name := "a", supers := ["b"] },
     { name := "b", supers := ["c", "lost"] },
     { name := "c", supers := ["a"] },
     { name := "d", supers := ["a"] }]
  root := some "a"

/-- What is found in it. -/
def report : List Issue :=
  [.missingAction "a", .asymmetricEdge "b" "a", .inheritanceCycle "a",
    .missingAction "b", .asymmetricEdge "c" "b", .asymmetricEdge "lost" "b", .inheritanceCycle "b",
    .missingAction "c", .asymmetricEdge "a" "c", .inheritanceCycle "c",
    .missingAction "d", .asymmetricEdge "a" "d"]

theorem inRange : model.InRange := by
  constructor <;> simp [model, PropertyMap.ids]

theorem issues_eq : model.issues = .ok report := by
  cbv

/-- From below the circle to the super that is not there. -/
theorem path_lost : model.Path "d" "lost" ["a", "b"] :=
  Model.path_cons.2 ⟨⟨_, rfl, by decide⟩, Model.path_cons.2 ⟨⟨_, rfl, by decide⟩,
    Model.path_nil.2 ⟨_, rfl, by decide⟩⟩⟩

end Tangled

/-- Seven turns are enough to find the super that is not there. Three of the four entities are on a
    circle. -/
theorem isA_finds_paths_tangled :
    Tangled.model.InRange ∧ Tangled.model.issues = .ok Tangled.report ∧
    Ascent.run Tangled.model "lost" 7 ⟨[], ["d"]⟩ = some true ∧
    (∀ n, Tangled.model.OnCycle n ↔ n = "a" ∨ n = "b" ∨ n = "c") := by
  obtain ⟨hrun, hpaths, _, hcycles⟩ := isA_finds_paths Tangled.model
  refine ⟨Tangled.inRange, Tangled.issues_eq, ?_, fun n => ?_⟩
  · rw [hrun "d" "lost" 7 (by decide), (hpaths "d" "lost").2 ⟨_, Tangled.path_lost⟩]
  · rw [← hcycles _ Tangled.issues_eq]
    simp [Tangled.report]

end Ebnf
