import Ebnf.Proofs.Types

/-!
# What the plan of a rule says of its properties

Whether a property can be left unfilled, and how often it can be filled, depends on the actions on
the way up from its source. The plan of the rule tells how they are marked, so both attributes
follow from the plan, and for an entity with a proxy from the way up from the choice.

* `Mark`, `Plan.ways`: the marks on the ways up from the leaves that ask for a name;
* `Plan.Stands.way`: the ways up in the arenas are marked so;
* `Site.Hosts.way_plain`, `Site.Hosts.way_proxy`: the way of each current property;
* `Model.Way.isOptional_eq`, `Model.Way.isPlural_eq`: what follows from it.
-/

namespace Ebnf

open Build (alternativeName getElem?_idsFrom mem_idsFrom)

/-! ## 1. Marks -/

/-- What counts of an action on the way up from a property. -/
structure Mark where
  /-- Whether it may find nothing. -/
  optional : Bool
  /-- Whether it repeats. -/
  plural : Bool
  /-- Whether it is a choice. -/
  choice : Bool
deriving DecidableEq, Repr

/-- The mark of an action. -/
def Action.mark (x : Action) : Mark :=
  ⟨x.isOptional, x.isPlural, x.isChoice⟩

namespace Mark

/-- Whether something may be skipped that is marked so from the inside out. -/
def mayMiss : List Mark → Bool
  | [] => false
  | source :: around => source.optional || around.any fun mark => mark.optional || mark.choice

/-- Whether something may come more than once that is marked so. -/
def repeats (way : List Mark) : Bool :=
  way.any Mark.plural

end Mark

namespace Plan

mutual

/-- The marks on the ways up from the leaves that ask for a name, where `around` are the marks
    around the plan. -/
def ways (around : List Mark) : Plan → List (List Mark)
  | leaf mods _ slot => slot.toList.map fun _ => ⟨mods.optional, mods.plural, false⟩ :: around
  | node mods choice parts => waysOf (⟨mods.optional, mods.plural, choice⟩ :: around) parts

/-- The same for several plans. -/
def waysOf (around : List Mark) : List Plan → List (List Mark)
  | [] => []
  | p :: ps => p.ways around ++ waysOf around ps

end

mutual

theorem length_ways (around : List Mark) : ∀ p : Plan, (p.ways around).length = p.width
  | leaf _ _ slot => by cases slot <;> rfl
  | node mods choice parts => length_waysOf _ parts

theorem length_waysOf (around : List Mark) :
    ∀ ps : List Plan, (waysOf around ps).length = (slotsOf ps).length
  | [] => rfl
  | p :: ps => by
    rw [waysOf, List.length_append, length_ways, length_waysOf, slotsOf, List.length_append, width]

end

mutual

/-- A way leads through the plan, and on through what is around it. -/
theorem exists_of_mem_ways {around way : List Mark} :
    ∀ {p : Plan}, way ∈ p.ways around → ∃ mark inside, way = mark :: inside ++ around
  | leaf mods _ slot, h => by
    cases slot with
    | none => exact absurd h List.not_mem_nil
    | some name => exact ⟨_, [], List.mem_singleton.1 h⟩
  | node mods choice parts, h => by
    obtain ⟨mark, inside, rfl⟩ := exists_of_mem_waysOf h
    exact ⟨mark, inside ++ [⟨mods.optional, mods.plural, choice⟩], by simp⟩

theorem exists_of_mem_waysOf {around way : List Mark} :
    ∀ {ps : List Plan}, way ∈ waysOf around ps → ∃ mark inside, way = mark :: inside ++ around
  | [], h => absurd h List.not_mem_nil
  | _ :: _, h => (List.mem_append.1 h).elim exists_of_mem_ways exists_of_mem_waysOf

end

end Plan

/-! ## 2. The way up in the arenas -/

namespace Model

variable {m : Model}

/-- The actions on the way up from the given one are marked so. -/
def Way (m : Model) (id : ActionId) (way : List Mark) : Prop :=
  ∃ line, m.lineage id = .ok line ∧ line.map (·.2.mark) = way

/-- The way up from what is around a plan: nothing, or an action from the place `b` on. -/
def Beneath (m : Model) (b : Nat) (way : List Mark) : Option ActionId → Prop
  | none => way = []
  | some id => b ≤ id.index ∧ m.Way id way

/-- The way up from an action is that from what is around it, and the action itself. -/
theorem Way.cons {i b : Nat} {x : Action} {around : List Mark} (hx : m.actions[i]? = some x)
    (hi : i < b) (h : m.Beneath b around x.parent) : m.Way ⟨i⟩ (x.mark :: around) := by
  cases hparent : x.parent with
  | none =>
    rw [hparent] at h
    obtain rfl : around = [] := h
    exact ⟨[(⟨i⟩, x)], lineage_top hx hparent, rfl⟩
  | some parent =>
    rw [hparent] at h
    obtain ⟨hb, line, hline, rfl⟩ := h
    refine ⟨(⟨i⟩, x) :: line, ?_, rfl⟩
    rw [lineage_parent hx hparent (Nat.lt_of_lt_of_le hi hb), hline]
    rfl

/-- Whether a property can be left unfilled is read off the way up from its source. -/
theorem Way.isOptional_eq {id : PropertyId} {p : Property} {way : List Mark}
    (h : m.Way p.source way) (hp : m.property id = .ok p) :
    m.isOptional id = .ok (Mark.mayMiss way) := by
  obtain ⟨line, hline, rfl⟩ := h
  simp only [isOptional, hp, hline, bind, Except.bind, pure, Except.pure]
  cases line with
  | nil => rfl
  | cons source around =>
    rw [List.map_cons, Mark.mayMiss, List.any_map]
    rfl

/-- How often it can be filled too. -/
theorem Way.isPlural_eq {id : PropertyId} {p : Property} {way : List Mark}
    (h : m.Way p.source way) (hp : m.property id = .ok p) :
    m.isPlural id = .ok (Mark.repeats way) := by
  obtain ⟨line, hline, rfl⟩ := h
  simp only [isPlural, hp, hline, bind, Except.bind, pure, Except.pure, Mark.repeats, List.any_map]
  rfl

end Model

namespace Plan

variable {m : Model} {entity : Name} {link : ActionId → Option PropertyId}

/-- The topmost action of a leaf is marked as the leaf is. -/
theorem mark_leaf (mods : Modifiers) (symbol : Symbol) (slot : Option Name) (a q : Nat)
    (parent : Option ActionId) :
    ((leaf mods symbol slot).top a q parent).mark = ⟨mods.optional, mods.plural, false⟩ := by
  cases symbol <;> rfl

/-- The topmost action of any other plan is marked as the plan is. -/
theorem mark_node (mods : Modifiers) (choice : Bool) (parts : List Plan) (a q : Nat)
    (parent : Option ActionId) (property : Option PropertyId) :
    Action.mark { (node mods choice parts).top a q parent with property := property } =
      ⟨mods.optional, mods.plural, choice⟩ := by
  cases choice <;> rfl

mutual

/-- The way up from a leaf that asks for a name is marked as the plan tells. -/
theorem Stands.way {a q b k : Nat} {parent : Option ActionId} {around way : List Mark} :
    ∀ {p : Plan}, p.Stands m entity link a q parent → a + p.size ≤ b →
      m.Beneath b around parent → (p.ways around)[k]? = some way →
      ∃ p, m.properties[q + k]? = some p ∧ m.Way p.source way
  | leaf mods symbol slot, ⟨htop, hslot⟩, hb, haround, hk => by
    cases slot with
    | none => exact absurd hk (by simp [ways])
    | some name =>
      cases k with
      | succ k => exact absurd hk (by simp [ways])
      | zero =>
        obtain rfl := Option.some.inj hk
        obtain ⟨name, hproperty⟩ := hslot rfl
        refine ⟨_, hproperty, ?_⟩
        rw [← mark_leaf mods symbol (some name) a q parent]
        exact .cons htop hb haround
  | node mods choice parts, ⟨hparts, htop⟩, hb, haround, hk => by
    refine hparts.way (Nat.le_refl _) ⟨Nat.le_refl _, ?_⟩ hk
    rw [← mark_node mods choice parts a q parent (link ⟨a + sizes parts⟩)]
    exact .cons htop hb haround

theorem StandInRow.way {a q b k : Nat} {parent : Option ActionId} {around way : List Mark} :
    ∀ {ps : List Plan}, StandInRow m entity link a q parent ps → a + sizes ps ≤ b →
      m.Beneath b around parent → (waysOf around ps)[k]? = some way →
      ∃ p, m.properties[q + k]? = some p ∧ m.Way p.source way
  | [], _, _, _, hk => absurd hk (by simp [waysOf])
  | p :: ps, ⟨hp, hps⟩, hb, haround, hk => by
    rw [sizes, ← Nat.add_assoc] at hb
    by_cases hlt : k < p.width
    · rw [waysOf, List.getElem?_append_left (by rwa [length_ways])] at hk
      exact hp.way (Nat.le_trans (Nat.le_add_right ..) hb) haround hk
    · have hle : p.width ≤ k := Nat.le_of_not_lt hlt
      rw [waysOf, List.getElem?_append_right (by rwa [length_ways]), length_ways] at hk
      have hway := hps.way hb haround hk
      rwa [show q + p.width + (k - p.width) = q + k by omega] at hway

end

end Plan

/-! ## 3. Current properties -/

namespace Site

variable {m : Model} {e : Entity} {s : Site}

/-- The way up from a leaf. -/
theorem Hosts.way (h : s.Hosts m e) {k : Nat} (hk : k < s.plan.width) :
    ∃ way p, (s.plan.ways [])[k]? = some way ∧ m.properties[s.property + k]? = some p ∧
      m.Way p.source way := by
  have hlt : k < (s.plan.ways []).length := by rwa [Plan.length_ways]
  have haround : m.Beneath s.fin [] none := rfl
  obtain ⟨p, hp, hway⟩ :=
    h.stands.way (Nat.le_refl _) haround (List.getElem?_eq_getElem hlt)
  exact ⟨_, p, List.getElem?_eq_getElem hlt, hp, hway⟩

/-- The way up from a property that was made for a leaf is that from the leaf. -/
theorem Hosts.way_plain (h : s.Hosts m e) (hproxy : s.proxy = none) {place : Nat} {key : Name}
    {id : PropertyId} (hplace : e.properties[place]? = some (key, id)) :
    ∃ way p, (s.plan.ways [])[place]? = some way ∧ m.property id = .ok p ∧
      m.Way p.source way := by
  obtain ⟨hlt, rfl⟩ := h.place_plain hproxy hplace
  obtain ⟨way, p, hk, hp, hway⟩ := h.way hlt
  exact ⟨way, p, hk, Model.property_eq_ok_iff.2 hp, hway⟩

/-- The way up from a proxy is that from any of the leaves it stands for, but for the leaf. -/
theorem Hosts.way_proxy (h : s.Hosts m e) {choice : ActionId} {proxy : PropertyId}
    (hproxy : s.proxy = some (choice, proxy)) {k : Nat} (hk : k < s.plan.width) :
    ∃ mark way, (s.plan.ways [])[k]? = some (mark :: way) ∧ m.Way choice way := by
  obtain ⟨f, i, x, _, hfills⟩ := h.exists_slot hk
  obtain ⟨name, hproperty⟩ := hfills.property
  obtain ⟨way, p, hget, hp, line, hline, rfl⟩ := h.way hk
  obtain rfl := Option.some.inj (hp.symm.trans hproperty)
  rw [(h.lineage_branch hproxy hk hfills).2] at hline
  cases hup : m.lineage choice with
  | error fault => rw [hup] at hline; contradiction
  | ok around =>
    rw [hup] at hline
    obtain rfl := Except.ok.inj hline
    exact ⟨x.mark, _, hget, around, hup, rfl⟩

end Site

end Ebnf
