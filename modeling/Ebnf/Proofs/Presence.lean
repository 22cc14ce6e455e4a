import Ebnf.Proofs.Instances
import Ebnf.Proofs.Marks

/-!
# Which fields are there

A property that cannot be left unfilled, by the actions around its source, has a field in every
instance, unless what fills it may match without giving a value. That is so for a reference to a
virtual entity which stands for a value that was not read, and for a choice one branch of which may
find nothing, repeats, or fills no property.

* `Run.Idle`, `Plan.Fed`: a match that gives no value, and one that gives a value to a place;
* `Plan.fed_run`, `Plan.Stands.fed_choice`: what cannot be skipped gives a value;
* `Model.Yieldless`: which properties may be left without a value all the same;
* `mandatory_filled`: every other one has a field, in all instances that a result is made up of.
-/

namespace Ebnf

open Build (alternativeName getElem?_idsFrom mem_idsFrom)

/-! ## 1. Values that are given -/

/-- An entity may be found without a value for which it stands. -/
def Run.Idle (step : Run (Option (Option Value))) : Prop :=
  ∃ s t, step s = .ok (some none) t

/-- What a step records that is done just once it records. -/
theorem Run.Yields.once {step : Run (Option Assignments)} {Q : Assignments → Prop}
    (h : Yields step Q) {mods : Modifiers} (hplural : mods.plural = false)
    (hoptional : mods.optional = false) (limit : Nat) :
    Yields (Ebnf.modified limit mods step) Q := by
  intro s out t hout
  rw [modified_single step hplural] at hout
  split at hout
  · next once u honce =>
    cases hout
    exact h s out t honce
  · rw [hoptional] at hout
    cases hout
  · contradiction

/-- Nothing can be skipped that is marked so, and nothing comes twice. -/
def Mark.Sure (way : List Mark) : Prop :=
  mayMiss way = false ∧ repeats way = false

/-- What is further out is neither optional nor a choice, and does not repeat. -/
theorem Mark.Sure.outer {source mark : Mark} {inside around : List Mark}
    (h : Sure (source :: inside ++ mark :: around)) :
    mark.optional = false ∧ mark.plural = false ∧ mark.choice = false := by
  obtain ⟨hmiss, hrepeats⟩ := h
  have hmem : mark ∈ inside ++ mark :: around := List.mem_append_right _ List.mem_cons_self
  simp only [List.cons_append, mayMiss, Bool.or_eq_false_iff, List.any_eq_false] at hmiss
  rw [repeats, List.any_eq_false] at hrepeats
  have hskip := hmiss.2 mark hmem
  have hplural := hrepeats mark (List.mem_cons_of_mem _ hmem)
  simp only [Bool.or_eq_true, not_or, Bool.not_eq_true] at hskip hplural
  exact ⟨hskip.1, hplural, hskip.2⟩

/-- What is innermost is not optional and does not repeat. -/
theorem Mark.Sure.inner {mark : Mark} {around : List Mark} (h : Sure (mark :: around)) :
    mark.optional = false ∧ mark.plural = false := by
  obtain ⟨hmiss, hrepeats⟩ := h
  simp only [mayMiss, Bool.or_eq_false_iff] at hmiss
  rw [repeats, List.any_cons, Bool.or_eq_false_iff] at hrepeats
  exact ⟨hmiss.1, hrepeats.1⟩

namespace Plan

variable {src : Source} {inner : Name → Run (Option (Option Value))} {patterns : Patterns}
  {dest : Nat → Destination} {d : Destination} {symbols symbols' : List Symbol}
  {out more : Assignments}

/-- A value was recorded for a destination, or would have been if an entity had not been idle to
    which one of the symbols refers. -/
def Fed (inner : Name → Run (Option (Option Value))) (d : Destination) (symbols : List Symbol)
    (out : Assignments) : Prop :=
  (∃ v, (d, v) ∈ out) ∨ ∃ target, Symbol.reference target ∈ symbols ∧ Run.Idle (inner target)

theorem Fed.mono (h : Fed inner d symbols out) (hsymbols : symbols ⊆ symbols') (hout : out ⊆ more) :
    Fed inner d symbols' more := by
  rcases h with ⟨v, hv⟩ | ⟨target, hmem, hidle⟩
  · exact .inl ⟨v, hout hv⟩
  · exact .inr ⟨target, hsymbols hmem, hidle⟩

/-- A token gives its value, unless it is a reference that has none to give. -/
theorem fed_token (hd : d ≠ .nowhere) (symbol : Symbol) :
    Run.Yields ((symbol.token patterns).run src inner d) (Fed inner d [symbol]) := by
  have hassign : ∀ v, Fed inner d [symbol] (assign d v) := by
    intro v
    refine .inl ⟨v, ?_⟩
    cases d with
    | nowhere => exact absurd rfl hd
    | elsewhere => exact List.mem_singleton_self _
    | field place => exact List.mem_singleton_self _
  intro s out t hout
  cases symbol with
  | literal text witness =>
    obtain ⟨found, u, _, hnext⟩ := found_of_bind hout fun _ => rfl
    cases hnext
    exact hassign _
  | pattern shown =>
    obtain ⟨found, u, _, hnext⟩ := found_of_bind hout fun _ => rfl
    cases hnext
    exact hassign _
  | reference target =>
    obtain ⟨value, u, hfound, hnext⟩ := found_of_bind hout fun _ => rfl
    cases hnext
    cases value with
    | none => exact .inr ⟨target, List.mem_singleton_self _, s, _, hfound⟩
    | some v => exact hassign v

/-! ## 2. Leaves that cannot be skipped -/

mutual

/-- A leaf that can neither be skipped nor come twice gives a value in every match. -/
theorem fed_run (hd : d ≠ .nowhere) {symbol : Symbol} {way : List Mark} (hsure : Mark.Sure way) :
    ∀ (p : Plan) (q : Nat) {k : Nat} {around : List Mark}, (p.ways around)[k]? = some way →
      p.symbols[k]? = some symbol → dest (q + k) = d →
      Run.Yields ((p.op patterns dest q).run src inner) (Fed inner d [symbol])
  | leaf mods symbol' slot, q, k, around, hway, hsymbol, hdest => by
    cases slot with
    | none => exact absurd hway (by simp [ways])
    | some name =>
      cases k with
      | succ k => exact absurd hway (by simp [ways])
      | zero =>
        obtain rfl := Option.some.inj hway
        obtain rfl := Option.some.inj hsymbol
        obtain ⟨hoptional, hplural⟩ := hsure.inner
        rw [op, Op.run]
        rw [Nat.add_zero] at hdest
        subst hdest
        exact (fed_token hd symbol').once hplural hoptional _
  | node mods choice parts, q, k, around, hway, hsymbol, hdest => by
    rw [ways] at hway
    obtain ⟨source, inside, rfl⟩ := exists_of_mem_waysOf (List.mem_of_getElem? hway)
    obtain ⟨hoptional, hplural, hchoice⟩ := hsure.outer
    obtain rfl : choice = false := hchoice
    rw [op, if_neg Bool.false_ne_true, Op.run]
    exact (fed_runAll hd hsure parts q hway hsymbol hdest).once hplural hoptional _

theorem fed_runAll (hd : d ≠ .nowhere) {symbol : Symbol} {way : List Mark}
    (hsure : Mark.Sure way) :
    ∀ (ps : List Plan) (q : Nat) {k : Nat} {around : List Mark},
      (waysOf around ps)[k]? = some way → (symbolsOf ps)[k]? = some symbol → dest (q + k) = d →
      Run.Yields (runAll src inner (opsOf patterns dest q ps)) (Fed inner d [symbol])
  | [], q, k, around, hway, _, _ => absurd hway (by simp [waysOf])
  | p :: ps, q, k, around, hway, hsymbol, hdest => by
    intro s out t hout
    rw [opsOf] at hout
    obtain ⟨first, u, more, hrun, hrest, rfl⟩ := of_runAll_cons hout
    rw [waysOf] at hway
    rw [symbolsOf] at hsymbol
    by_cases hlt : k < p.width
    · rw [List.getElem?_append_left (by rwa [length_ways])] at hway
      rw [List.getElem?_append_left (by rwa [length_symbols])] at hsymbol
      exact (fed_run hd hsure p q hway hsymbol hdest s first u hrun).mono (List.Subset.refl _)
        (List.subset_append_left ..)
    · have hle : p.width ≤ k := Nat.le_of_not_lt hlt
      rw [List.getElem?_append_right (by rwa [length_ways]), length_ways] at hway
      rw [List.getElem?_append_right (by rwa [length_symbols]), length_symbols] at hsymbol
      have hdest' : dest (q + p.width + (k - p.width)) = d := by
        rwa [show q + p.width + (k - p.width) = q + k by omega]
      exact (fed_runAll hd hsure ps (q + p.width) hway hsymbol hdest' u more _ hrest).mono
        (List.Subset.refl _) (List.subset_append_right ..)

end

/-! ## 3. Choices that cannot be skipped -/

end Plan

/-- A branch of a choice may find nothing, repeats, or fills no property. -/
def Model.Loose (m : Model) (choice : ActionId) : Prop :=
  ∃ y branch x, m.action choice = .ok y ∧ branch ∈ y.children ∧ m.action branch = .ok x ∧
    (x.isOptional = true ∨ x.isPlural = true ∨ x.property = none)

/-- The way up from what is around a plan repeats as it is marked. -/
theorem Model.Beneath.around {m : Model} {b : Nat} {way : List Mark} {parent : Option ActionId}
    (h : m.Beneath b way parent) : Plan.Around m b (Mark.repeats way) parent := by
  cases parent with
  | none =>
    obtain rfl : way = [] := h
    rfl
  | some id =>
    obtain ⟨hb, line, hline, rfl⟩ := h
    refine ⟨hb, line, hline, ?_⟩
    rw [Mark.repeats, List.any_map]
    rfl

theorem Model.Way.unique {m : Model} {id : ActionId} {way way' : List Mark} (h : m.Way id way)
    (h' : m.Way id way') : way = way' := by
  obtain ⟨line, hline, rfl⟩ := h
  obtain ⟨line', hline', rfl⟩ := h'
  rw [Except.ok.inj (hline.symm.trans hline')]

namespace Plan

variable {m : Model} {entity : Name} {link : ActionId → Option PropertyId}

/-- The way up from what is around the parts of a plan. -/
theorem Stands.beneath {mods : Modifiers} {choice : Bool} {parts : List Plan} {a q b : Nat}
    {parent : Option ActionId} {around : List Mark}
    (h : (node mods choice parts).Stands m entity link a q parent) (hb : a + sizes parts < b)
    (haround : m.Beneath b around parent) :
    m.Beneath (a + sizes parts) (⟨mods.optional, mods.plural, choice⟩ :: around)
      (some ⟨a + sizes parts⟩) := by
  refine ⟨Nat.le_refl _, ?_⟩
  rw [← mark_node mods choice parts a q parent (link ⟨a + sizes parts⟩)]
  exact .cons h.2 hb haround

mutual

/-- The way up from an action of a plan leads on through what is around the plan. -/
theorem Stands.way_within {a q b i : Nat} {parent : Option ActionId} {around : List Mark} :
    ∀ {p : Plan}, p.Stands m entity link a q parent → a + p.size ≤ b →
      m.Beneath b around parent → a ≤ i → i < a + p.size →
      ∃ mark inside, m.Way ⟨i⟩ (mark :: inside ++ around)
  | leaf mods symbol slot, ⟨htop, _⟩, hb, haround, ha, hi => by
    obtain rfl : i = a := Nat.le_antisymm (Nat.le_of_lt_succ hi) ha
    exact ⟨_, [], .cons htop hb haround⟩
  | node mods choice parts, h, hb, haround, ha, hi => by
    have hbeneath := h.beneath hb haround
    rw [size, ← Nat.add_assoc] at hi
    rcases Nat.lt_succ_iff_lt_or_eq.1 hi with hlt | rfl
    · obtain ⟨mark, inside, hway⟩ := h.1.way_within (Nat.le_refl _) hbeneath ha hlt
      exact ⟨mark, inside ++ [⟨mods.optional, mods.plural, choice⟩], by simpa using hway⟩
    · exact ⟨_, [], hbeneath.2⟩

theorem StandInRow.way_within {a q b i : Nat} {parent : Option ActionId} {around : List Mark} :
    ∀ {ps : List Plan}, StandInRow m entity link a q parent ps → a + sizes ps ≤ b →
      m.Beneath b around parent → a ≤ i → i < a + sizes ps →
      ∃ mark inside, m.Way ⟨i⟩ (mark :: inside ++ around)
  | [], _, _, _, ha, hi => absurd (Nat.lt_of_le_of_lt ha hi) (Nat.lt_irrefl a)
  | p :: ps, ⟨hp, hps⟩, hb, haround, ha, hi => by
    rw [sizes, ← Nat.add_assoc] at hb hi
    by_cases hlt : i < a + p.size
    · exact hp.way_within (Nat.le_trans (Nat.le_add_right ..) hb) haround ha hlt
    · exact hps.way_within hb haround (Nat.le_of_not_lt hlt) hi

end

variable {src : Source} {inner : Name → Run (Option (Option Value))} {patterns : Patterns}
  {dest : Nat → Destination} {d : Destination} {c : ActionId}

/-- A branch of a choice gives a value, or is one that need not. -/
theorem Stands.fed_branch (hd : d ≠ .nowhere) (hdest : ∀ k, dest k = d)
    (hlink : ∀ i id, link i = some id → i = c) {y : Action} (hy : m.action c = .ok y) {p : Plan}
    {a q : Nat} (h : p.Stands m entity link a q (some c)) (hc : a + p.size ≤ c.index)
    (hchild : (⟨a + p.size - 1⟩ : ActionId) ∈ y.children) :
    Run.Yields ((p.op patterns dest q).run src inner) fun out =>
      Fed inner d p.symbols out ∨ m.Loose c := by
  intro s out t hrun
  cases p with
  | node mods choice parts =>
    -- the choice itself is the only action with children that has a property
    have hne : (⟨a + sizes parts⟩ : ActionId) ≠ c := by
      rintro rfl
      have : a + (sizes parts + 1) ≤ a + sizes parts := hc
      omega
    have hnone : link ⟨a + sizes parts⟩ = none := by
      cases hid : link ⟨a + sizes parts⟩ with
      | none => rfl
      | some id => exact absurd (hlink _ id hid) hne
    exact .inr ⟨y, _, _, hy, hchild, Model.action_eq_ok_iff.2 h.2, .inr (.inr hnone)⟩
  | leaf mods symbol slot =>
    have hx : m.action ⟨a + (leaf mods symbol slot).size - 1⟩ = .ok _ :=
      Model.action_eq_ok_iff.2 h.1
    cases slot with
    | none => exact .inr ⟨y, _, _, hy, hchild, hx, .inr (.inr rfl)⟩
    | some name =>
      cases hoptional : mods.optional with
      | true => exact .inr ⟨y, _, _, hy, hchild, hx, .inl hoptional⟩
      | false =>
        cases hplural : mods.plural with
        | true => exact .inr ⟨y, _, _, hy, hchild, hx, .inr (.inl hplural)⟩
        | false =>
          rw [op, Op.run, Option.isSome_some, if_pos rfl, hdest] at hrun
          exact .inl ((fed_token hd symbol).once hplural hoptional _ s out _ hrun)

/-- The branch of a choice that succeeds gives a value, or is one that need not. -/
theorem StandInRow.fed_any (hd : d ≠ .nowhere) (hdest : ∀ k, dest k = d)
    (hlink : ∀ i id, link i = some id → i = c) {y : Action} (hy : m.action c = .ok y) :
    ∀ {ps : List Plan} {a q : Nat}, StandInRow m entity link a q (some c) ps →
      a + sizes ps ≤ c.index → (∀ i ∈ roots a ps, i ∈ y.children) →
      Run.Yields (runAny src inner (opsOf patterns dest q ps)) fun out =>
        Fed inner d (symbolsOf ps) out ∨ m.Loose c
  | [], a, q, _, _, _ => by
    intro s out t hout
    rw [opsOf, runAny] at hout
    cases hout
  | p :: ps, a, q, ⟨hp, hps⟩, hc, hchildren => by
    rw [sizes, ← Nat.add_assoc] at hc
    rw [roots] at hchildren
    intro s out t hout
    rw [opsOf] at hout
    rcases of_runAny_cons hout with hrun | ⟨u, _, hrest⟩
    · rcases hp.fed_branch hd hdest hlink hy (Nat.le_of_add_right_le hc)
        (hchildren _ List.mem_cons_self) s out _ hrun with hfed | hloose
      · exact .inl (hfed.mono (List.subset_append_left ..) (List.Subset.refl _))
      · exact .inr hloose
    · rcases hps.fed_any hd hdest hlink hy hc (fun i hi => hchildren i (List.mem_cons_of_mem _ hi))
        u out t hrest with hfed | hloose
      · exact .inl (hfed.mono (List.subset_append_right ..) (List.Subset.refl _))
      · exact .inr hloose

variable {way : List Mark}

mutual

/-- A choice that can neither be skipped nor come twice gives a value in every match, if all leaves
    that ask for a name are branches of it and none of its branches need not give one. -/
theorem Stands.fed_choice (hd : d ≠ .nowhere) (hdest : ∀ k, dest k = d)
    (hlink : ∀ i id, link i = some id → i = c) {y : Action} (hy : m.action c = .ok y)
    (hchoice : y.isChoice = true) (hway : m.Way c way) (hsure : Mark.Sure way) :
    ∀ {p : Plan} {a q b : Nat} {parent : Option ActionId} {around : List Mark},
      p.Stands m entity link a q parent → a + p.size ≤ b → m.Beneath b around parent →
      Branches m c q p.width → 0 < p.width → parent ≠ some c →
      Run.Yields ((p.op patterns dest q).run src inner) fun out =>
        Fed inner d p.symbols out ∨ m.Loose c
  | leaf mods symbol slot, a, q, b, parent, around, h, hb, haround, hbranches, hwidth, hparent => by
    cases slot with
    | none => exact absurd hwidth (Nat.lt_irrefl 0)
    | some name =>
      obtain ⟨p, x, hp, hx, hc⟩ := hbranches 0 hwidth
      obtain ⟨asked, hproperty⟩ := h.2 rfl
      obtain rfl := Option.some.inj (hp.symm.trans hproperty)
      obtain rfl := Option.some.inj (hx.symm.trans h.1)
      exact absurd hc hparent
  | node mods choice parts, a, q, b, parent, around, h, hb, haround, hbranches, hwidth,
      hparent => by
    have hbeneath := h.beneath hb haround
    by_cases hself : (⟨a + sizes parts⟩ : ActionId) = c
    · subst hself
      obtain rfl := hway.unique hbeneath.2
      obtain ⟨hoptional, hplural⟩ := hsure.inner
      obtain rfl := Option.some.inj (h.2.symm.trans (Model.action_eq_ok_iff.1 hy))
      obtain rfl : choice = true := by
        cases choice with
        | true => rfl
        | false => exact absurd hchoice Bool.false_ne_true
      rw [op, if_pos rfl, Op.run]
      exact (h.1.fed_any hd hdest hlink hy (Nat.le_refl _) fun i hi => hi).once hplural hoptional _
    · have hwithin := h.1.within (Nat.le_refl _) hbeneath.around hbranches hwidth
        (fun heq => hself (Option.some.inj heq))
      obtain ⟨mark, inside, hthrough⟩ :=
        h.1.way_within (Nat.le_refl _) hbeneath hwithin.1 hwithin.2
      have hmarks := hsure
      rw [hway.unique hthrough] at hmarks
      obtain ⟨hoptional, hplural, hsequence⟩ := hmarks.outer
      obtain rfl : choice = false := hsequence
      rw [op, if_neg Bool.false_ne_true, Op.run]
      exact (StandInRow.fed_all hd hdest hlink hy hchoice hway hsure h.1 (Nat.le_refl _) hbeneath
        hbranches hwidth fun heq => hself (Option.some.inj heq)).once hplural hoptional _

theorem StandInRow.fed_all (hd : d ≠ .nowhere) (hdest : ∀ k, dest k = d)
    (hlink : ∀ i id, link i = some id → i = c) {y : Action} (hy : m.action c = .ok y)
    (hchoice : y.isChoice = true) (hway : m.Way c way) (hsure : Mark.Sure way) :
    ∀ {ps : List Plan} {a q b : Nat} {parent : Option ActionId} {around : List Mark},
      StandInRow m entity link a q parent ps → a + sizes ps ≤ b → m.Beneath b around parent →
      Branches m c q (slotsOf ps).length → 0 < (slotsOf ps).length → parent ≠ some c →
      Run.Yields (runAll src inner (opsOf patterns dest q ps)) fun out =>
        Fed inner d (symbolsOf ps) out ∨ m.Loose c
  | [], _, _, _, _, _, _, _, _, _, hwidth, _ => absurd hwidth (Nat.lt_irrefl 0)
  | p :: ps, a, q, b, parent, around, h, hb, haround, hbranches, hwidth, hparent => by
    rw [sizes, ← Nat.add_assoc] at hb
    rw [slotsOf, List.length_append] at hbranches hwidth
    intro s out t hout
    rw [opsOf] at hout
    obtain ⟨first, u, more, hrun, hrest, rfl⟩ := of_runAll_cons hout
    rcases Nat.eq_zero_or_pos p.width with hzero | hpos
    · rw [width] at hzero
      rw [hzero, Nat.zero_add] at hwidth
      rcases StandInRow.fed_all hd hdest hlink hy hchoice hway hsure h.2 hb haround
        hbranches.right hwidth hparent u more _ hrest with hfed | hloose
      · exact .inl (hfed.mono (List.subset_append_right ..) (List.subset_append_right ..))
      · exact .inr hloose
    · rcases Stands.fed_choice hd hdest hlink hy hchoice hway hsure h.1
        (Nat.le_trans (Nat.le_add_right ..) hb) haround hbranches.left hpos hparent s first u hrun
        with hfed | hloose
      · exact .inl (hfed.mono (List.subset_append_left ..) (List.subset_append_left ..))
      · exact .inr hloose

end

end Plan

/-! ## 4. Entities -/

/-- A property that cannot be left unfilled may be left without a value all the same. It stands for
    a choice with a loose branch, or refers to a virtual entity that stands for nothing where its
    own property is left unfilled or without a value. -/
inductive Model.Yieldless (m : Model) : PropertyId → Prop where
  | branch {id : PropertyId} {p : Property} (property : m.property id = .ok p)
    (proxy : p.isProxy = true) (loose : m.Loose p.source) : Yieldless m id
  | unfilled {id only : PropertyId} {t : Name} (refers : m.Refers id t)
    (isVirtual : m.isVirtual t = .ok true) (alone : m.Only t only)
    (optional : m.isOptional only = .ok true) : Yieldless m id
  | passed {id only : PropertyId} {t : Name} (refers : m.Refers id t)
    (isVirtual : m.isVirtual t = .ok true) (alone : m.Only t only) (without : Yieldless m only) :
    Yieldless m id

variable {g : Grammar} {engine : Engine} {m : Model} {config : ReadConfig} {p : Program}
  {patterns : Patterns} {e : Entity} {s : Site} {src : Ebnf.Source}
  {inner : Name → Run (Option (Option Value))}

/-- A field without a value holds no list, and nothing was recorded for it. -/
theorem Field.of_value?_eq_none {f : Field} {place : Nat} {out : Assignments}
    (h : f.value? place out = none) : f.isPlural = false ∧ ∀ v, (.field place, v) ∉ out := by
  rw [Field.value?] at h
  cases hplural : f.isPlural with
  | true => simp [hplural] at h
  | false =>
    refine ⟨rfl, fun v hv => ?_⟩
    have hmem : v ∈ valuesAt place out :=
      List.mem_map.2 ⟨_, List.mem_filter.2 ⟨hv, decide_eq_true rfl⟩, rfl⟩
    obtain ⟨last, hlast⟩ := Option.isSome_iff_exists.1
      (List.getLast?_isSome.2 (List.ne_nil_of_mem hmem))
    simp [hplural, hlast] at h

namespace Site

/-- A property that was made for a leaf is fed, if it can neither be left unfilled nor filled more
    than once. -/
theorem Hosts.fed_plain (h : s.Hosts m e) (hproxy : s.proxy = none) {place : Nat} {key : Name}
    {id : PropertyId} (hplace : e.properties[place]? = some (key, id))
    (hoptional : m.isOptional id = .ok false) (hplural : m.isPlural id = .ok false) :
    ∃ symbol, s.Feeds place symbol ∧
      Run.Yields ((s.plan.op patterns s.dest s.property).run src inner)
        (Plan.Fed inner (.field place) [symbol]) := by
  obtain ⟨way, p, hway, hp, hup⟩ := h.way_plain hproxy hplace
  have hsure : Mark.Sure way := by
    rw [hup.isOptional_eq hp] at hoptional
    rw [hup.isPlural_eq hp] at hplural
    exact ⟨Except.ok.inj hoptional, Except.ok.inj hplural⟩
  have hlt : place < s.plan.symbols.length := by
    rw [Plan.length_symbols]
    exact (h.place_plain hproxy hplace).1
  have hsymbol := List.getElem?_eq_getElem hlt
  have hdest : s.dest (s.property + place) = .field place := by simp [dest, hproxy]
  exact ⟨_, ⟨place, hsymbol, hdest⟩,
    Plan.fed_run (by simp) hsure s.plan s.property hway hsymbol hdest⟩

/-- A proxy is fed, if it can neither be left unfilled nor filled more than once and its choice has
    no loose branch. -/
theorem Hosts.fed_proxy (h : s.Hosts m e) {choice : ActionId} {proxy : PropertyId}
    (hproxy : s.proxy = some (choice, proxy)) (hoptional : m.isOptional proxy = .ok false)
    (hplural : m.isPlural proxy = .ok false) :
    Run.Yields ((s.plan.op patterns s.dest s.property).run src inner) fun out =>
      Plan.Fed inner (.field 0) s.plan.symbols out ∨ m.Loose choice := by
  have hchooses := h.chooses choice proxy hproxy
  obtain ⟨mark, way, _, hup⟩ := h.way_proxy hproxy hchooses.nonempty
  have hp := Model.property_eq_ok_iff.2 hchooses.property
  have hsure : Mark.Sure way := by
    rw [Model.Way.isOptional_eq (p := s.proxyOf e.name choice) hup hp] at hoptional
    rw [Model.Way.isPlural_eq (p := s.proxyOf e.name choice) hup hp] at hplural
    exact ⟨Except.ok.inj hoptional, Except.ok.inj hplural⟩
  obtain ⟨y, hy, hchoice, _⟩ := hchooses.action
  have haround : m.Beneath s.fin [] none := rfl
  refine Plan.Stands.fed_choice (by simp) (fun k => by simp [dest, hproxy]) (fun i id hid => ?_)
    (Model.action_eq_ok_iff.2 hy) hchoice hup hsure h.stands (Nat.le_refl _) haround
    (fun k hk => ?_) hchooses.nonempty (by simp)
  · rw [link_proxy hproxy] at hid
    split at hid
    · assumption
    · contradiction
  · obtain ⟨p, x, hp, hx, hparent, _⟩ := hchooses.branches k hk
    exact ⟨p, x, hp, hx, hparent⟩

end Site

/-- A property to which a match gave no value can be left unfilled, or stands for a choice with a
    loose branch, or refers to an idle entity. -/
theorem Procedure.Of.unfilled [Unicode.Xid] {proc : Procedure} {r : Rule} {fields : List Field}
    (h : proc.Of g m patterns e s r fields) {u t : RunState} {out : Assignments}
    (hrun : (s.plan.op patterns s.dest s.property).run src inner u = .ok (some out) t)
    {key name : Name} {id : PropertyId} (hmem : (key, id) ∈ e.properties)
    (hnone : (assemble name fields out).get? key = none) :
    m.isPlural id = .ok false ∧ (m.isOptional id = .ok true ∨
      (∃ p, m.property id = .ok p ∧ p.isProxy = true ∧ m.Loose p.source) ∨
        ∃ target, m.Refers id target ∧ Run.Idle (inner target)) := by
  obtain ⟨place, hplace⟩ := List.mem_iff_getElem?.1 hmem
  obtain ⟨f, hf, rfl, hfield⟩ := h.field hplace
  obtain ⟨_, _, _, _, _, hplural, _⟩ := Field.of_ofModel hfield
  have hget := h.get?_assemble hf name out
  obtain ⟨hsingle, hempty⟩ := Field.of_value?_eq_none (hget.symm.trans hnone)
  rw [hsingle] at hplural
  refine ⟨hplural, ?_⟩
  obtain ⟨b, hoptional⟩ := (h.hosts.lists hmem).isOptional_ok
  cases b with
  | true => exact .inl hoptional
  | false =>
    refine .inr ?_
    have hrefers : ∀ target, s.Feeds place (.reference target) → m.Refers id target :=
      fun target => (h.hosts.refers_iff hplace).2
    cases hproxy : s.proxy with
    | none =>
      obtain ⟨symbol, hfeeds, hyields⟩ := h.hosts.fed_plain hproxy hplace hoptional hplural
      rcases hyields u out t hrun with ⟨v, hv⟩ | ⟨target, htarget, hidle⟩
      · exact absurd hv (hempty v)
      · rw [← List.mem_singleton.1 htarget] at hfeeds
        exact .inr ⟨target, hrefers target hfeeds, hidle⟩
    | some entry =>
      obtain ⟨choice, proxy⟩ := entry
      obtain ⟨rfl, rfl⟩ := h.hosts.place_proxy hproxy hplace
      rcases h.hosts.fed_proxy hproxy hoptional hplural u out t hrun with hfed | hloose
      · rcases hfed with ⟨v, hv⟩ | ⟨target, htarget, hidle⟩
        · exact absurd hv (hempty v)
        · obtain ⟨k, hk⟩ := List.mem_iff_getElem?.1 htarget
          exact .inr ⟨target, hrefers target ⟨k, hk, by simp [Site.dest, hproxy]⟩, hidle⟩
      · exact .inl ⟨_, Model.property_eq_ok_iff.2 (h.hosts.chooses choice id hproxy).property, rfl,
          hloose⟩

/-- What is read for an entity has a field for each property, but for those that need none. -/
theorem Program.Made.unfilled_entity [Unicode.Xid] (hmade : p.Made engine m config patterns)
    (hreached : Build.Reached g m True) (src : Source) (depth : Nat) :
    ∀ name s n t, p.entity src depth name s = .ok (some n) t →
      ∀ e key id, m.entity? name = some e → (key, id) ∈ e.properties → n.get? key = none →
        m.isPlural id = .ok false ∧ (m.isOptional id = .ok true ∨ m.Yieldless id) := by
  obtain ⟨site, hsited⟩ := hreached.bodies trivial
  -- what an entity refers to is read at a smaller depth
  induction depth with
  | zero => exact fun name s n t h => by cases h
  | succ depth ih =>
    intro name s n t h e key id he hmem hnone
    obtain ⟨below, e', proc, r, fields, u, out, hbelow, he', _, hof, hrun, rfl⟩ :=
      hmade.of_entity hreached hsited h
    obtain rfl := Nat.succ.inj hbelow
    obtain rfl := Option.some.inj (he.symm.trans he')
    obtain ⟨hplural, hcases⟩ := hof.unfilled hrun hmem hnone
    refine ⟨hplural, ?_⟩
    rcases hcases with hoptional | ⟨p', hp', hproxy, hloose⟩ | ⟨target, hrefers, s', t', hidle⟩
    · exact .inl hoptional
    · exact .inr (.branch hp' hproxy hloose)
    · obtain ⟨n, hn, _, ⟨hvirtual, hfirst⟩ | ⟨_, hnode⟩⟩ := hmade.inner_eq_ok hreached hidle
      · obtain ⟨o, only, id', ho, hproperties, _⟩ := Model.of_isVirtual hvirtual
        have honly : m.Only target id' := ⟨o, ho, by rw [hproperties]; rfl⟩
        have hfields : n.fields = [] := by
          simpa [Node.firstValue?] using hfirst.symm
        have hleft : n.get? only = none := by
          rw [Node.get?, hfields]
          rfl
        have hlisted : (only, id') ∈ o.properties := by
          rw [hproperties]
          exact List.mem_singleton_self _
        rcases (ih target s' n t' hn o only id' ho hlisted hleft).2 with hoptional | hwithout
        · exact .inr (.unfilled hrefers hvirtual honly hoptional)
        · exact .inr (.passed hrefers hvirtual honly hwithout)
      · contradiction

/-! ## 5. Results -/

/-- In a result every instance has a field for each property of its entity that cannot be left
    unfilled, unless the property does not repeat and may be left without a value all the same. -/
theorem mandatory_filled [Unicode.Xid] {n : Nat} (hmodel : Model.ofGrammar g = .ok m)
    (hprogram : Program.ofModel engine m config = .ok (p, n)) {text : String} {node : Node}
    (hread : p.read text = .ok (.ok node)) {x : Name} {fields : List (Name × Value)}
    (hinside : Value.Inside (.node x fields) node.toValue) :
    ∃ e, m.entity? x = some e ∧ ∀ key id, e.property? key = some id →
      ∃ b, m.isOptional id = .ok b ∧ (b = false →
        (∃ w, (key, w) ∈ fields) ∨ m.isPlural id = .ok false ∧ m.Yieldless id) := by
  have hreached := (Build.reached_ofGrammar hmodel).1
  obtain ⟨patterns, hmade⟩ := Program.made_of_ofModel hprogram
  obtain ⟨site, hsited⟩ := hreached.bodies trivial
  have hinstances := hmade.instance_of_read hreached hread
  obtain ⟨_, depth, s, t, hentity⟩ := hinstances x fields hinside
  obtain ⟨_, e, _, _, _, _, _, _, he, _⟩ := hmade.of_entity hreached hsited hentity
  refine ⟨e, he, fun key id hkey => ?_⟩
  have hmem : (key, id) ∈ e.properties := Ordered.mem_of_get? hkey
  have hlists := (hreached.orderly e (Model.mem_of_entity?_eq_some he)).properties key id hmem
  obtain ⟨b, hoptional⟩ := hlists.isOptional_ok
  refine ⟨b, hoptional, fun hfalse => ?_⟩
  rw [hfalse] at hoptional
  cases hget : Ordered.get? fields key with
  | some w => exact .inl ⟨w, Ordered.mem_of_get? hget⟩
  | none =>
    obtain ⟨hplural, hmissing | hwithout⟩ :=
      hmade.unfilled_entity hreached _ depth x s _ t hentity e key id he hmem hget
    · rw [hoptional] at hmissing
      contradiction
    · exact .inr ⟨hplural, hwithout⟩

/-! ## 6. Examples -/

namespace Circle

/-- Neither choice has a branch that may find nothing. -/
theorem not_loose {p : Property} (hp : p ∈ model.properties.toList) (hproxy : p.isProxy = true) :
    ¬ model.Loose p.source := by
  have hsource : p.source = ⟨5⟩ ∨ p.source = ⟨8⟩ := by
    revert p
    decide
  rintro ⟨y, branch, x, hy, hbranch, hx, hloose⟩
  have hplain : x.isOptional = false ∧ x.isPlural = false ∧ x.property ≠ none := by
    rcases hsource with hsource | hsource
    all_goals
      rw [hsource] at hy
      obtain rfl := Except.ok.inj hy
      rcases List.mem_cons.1 hbranch with rfl | hbranch
      · obtain rfl := Except.ok.inj hx
        decide
      · obtain rfl := List.mem_singleton.1 hbranch
        obtain rfl := Except.ok.inj hx
        decide
  simp [hplain] at hloose

/-- The only property of an entity cannot be left unfilled. -/
theorem isOptional_only {n : Name} {id : PropertyId} (h : model.Only n id) :
    model.isOptional id = .ok false := by
  obtain ⟨e, he, hids⟩ := h
  have hall : ∀ e ∈ model.entities, e.properties.ids.length = 1 →
      ∀ id ∈ e.properties.ids, id = ⟨6⟩ ∨ id = ⟨7⟩ ∨ id = ⟨8⟩ := by
    decide
  have hid := hall e (Model.mem_of_entity?_eq_some he) (congrArg List.length hids) id
    (hids ▸ List.mem_singleton_self id)
  rcases hid with rfl | rfl | rfl <;> cbv

theorem not_yieldless (id : PropertyId) : ¬ model.Yieldless id := by
  intro h
  induction h with
  | branch property proxy loose =>
    have hstored := Array.mem_of_getElem? (Model.property_eq_ok_iff.1 property)
    have hmem := Array.mem_toList_iff.2 hstored
    exact not_loose hmem proxy loose
  | unfilled refers isVirtual alone optional =>
    rw [isOptional_only alone] at optional
    contradiction
  | passed refers isVirtual alone without ih => exact ih

theorem isOptional_left : model.isOptional ⟨0⟩ = .ok false := by
  cbv

theorem isOptional_right : model.isOptional ⟨1⟩ = .ok false := by
  cbv

end Circle

namespace Gaps

/-- Pairs of two parts, both of which may be left out. -/
def grammar : Grammar where
  rules := [
    { name := "pair",
      body := .sequence (.literal none "k")
        (.sequence (.reference none "left") (.reference none "right")) },
    { name := "left",
      body := .choice (.literal (some "_") "n") (.repetition (.reference none "mark")) },
    { name := "right", body := .optional (.reference none "mark") },
    { name := "mark", body := .sequence (.literal none "a") (.literal none "b") }]

def pair : Entity where
  name := "pair"
  rule := grammar.rule? "pair"
  properties := [("left", ⟨0⟩), ("right", ⟨1⟩)]
  action := some ⟨3⟩

def left : Entity where
  name := "left"
  rule := grammar.rule? "left"
  properties := [("alternative", ⟨4⟩)]
  action := some ⟨6⟩

def right : Entity where
  name := "right"
  rule := grammar.rule? "right"
  properties := [("mark", ⟨3⟩)]
  action := some ⟨7⟩

def mark : Entity where
  name := "mark"
  rule := grammar.rule? "mark"
  action := some ⟨10⟩

/-- The model of the pairs with the given links. -/
def linked (links : List (Name × Name)) : Model :=
  links.foldl (fun m link => (m.addSub link.1 link.2).addSuper link.2 link.1) {
    entities := [pair, left, right, mark]
    properties := #[
      { name := "left", entity := "pair", source := ⟨1⟩ },
      { name := "right", entity := "pair", source := ⟨2⟩ },
      { name := "mark", entity := "left", source := ⟨5⟩ },
      { name := "mark", entity := "right", source := ⟨7⟩ },
      { name := "alternative", entity := "left", source := ⟨6⟩, kind := .proxy [⟨2⟩] }]
    actions := #[
      { kind := .literal "k", parent := some ⟨3⟩ },
      { kind := .entity "left", property := some ⟨0⟩, parent := some ⟨3⟩ },
      { kind := .entity "right", property := some ⟨1⟩, parent := some ⟨3⟩ },
      { kind := .all [⟨0⟩, ⟨1⟩, ⟨2⟩] },
      { kind := .literal "n", parent := some ⟨6⟩ },
      { kind := .entity "mark", isPlural := true, property := some ⟨2⟩, parent := some ⟨6⟩ },
      { kind := .any [⟨4⟩, ⟨5⟩], property := some ⟨4⟩ },
      { kind := .entity "mark", isOptional := true, property := some ⟨3⟩ },
      { kind := .literal "a", parent := some ⟨10⟩ },
      { kind := .literal "b", parent := some ⟨10⟩ },
      { kind := .all [⟨8⟩, ⟨9⟩] }]
    root := some "pair" }

/-- The model of the pairs. Both parts are virtual, since a mark is a special case of each. -/
def model : Model :=
  linked [("left", "mark"), ("right", "mark")]

/-- The program of the pairs. -/
def program : Program where
  root := "pair"
  ignore := none
  maxDepth := 256
  procedures := model.entities.map fun e => (e.name, Procedure.ofModel model [] e)

theorem discover_left (events : Array Event) (attached : List (Name × PropertyId)) :
    Build.discover left { model := linked [], events, attached } = .ok ["mark"]
      { model := linked [("left", "mark")], events := events.push (.subFound "left" "mark"),
        attached } := by
  have hmark : (linked []).register? "left" "mark" = some (linked [("left", "mark")]) :=
    Model.register?_of_isA_eq_false (by decide) (by cbv) (by cbv) (by decide) (by decide)
  exact Build.discover_proxy rfl (by cbv) rfl rfl (by cbv)
    (forM_cons_of_ok (Build.registerSub_some hmark))

theorem discover_right (events : Array Event) (attached : List (Name × PropertyId)) :
    Build.discover right { model := linked [("left", "mark")], events, attached } = .ok ["mark"]
      { model, events := events.push (.subFound "right" "mark"), attached } := by
  have hmark : (linked [("left", "mark")]).register? "right" "mark" = some model :=
    Model.register?_of_isA_eq_false (by decide) (by cbv) (by cbv) (by decide) (by decide)
  exact Build.discover_reference rfl (by cbv) rfl rfl rfl rfl (by cbv) rfl
    (Build.registerSub_some hmark)

/-- A mark is found as a special case of the left part, and then of the right one. -/
theorem walk_eq (events : Array Event) (attached : List (Name × PropertyId)) :
    Build.walk ["pair", "left", "right", "mark"] [] ["pair"]
      { model := linked [], events, attached } = .ok ()
      { model, events := (events.push (.subFound "left" "mark")).push
          (.subFound "right" "mark"), attached } := by
  have hpair : Build.discover pair { model := linked [], events, attached } =
      .ok ["left", "right"] { model := linked [], events, attached } := by
    cbv
  have hmark : ∀ events, Build.discover { mark with supers := ["left"] }
      { model := linked [("left", "mark")], events, attached } =
        .ok [] { model := linked [("left", "mark")], events, attached } := by
    intro events
    cbv
  rw [Build.walk_cons (by decide) rfl hpair, List.append_nil,
    Build.walk_cons (by decide) rfl (discover_left _ _), List.cons_append,
    Build.walk_cons (by decide) rfl (hmark _), List.nil_append, List.nil_append,
    Build.walk_cons (by decide) rfl (discover_right _ _), List.append_nil,
    Build.walk_pass (by decide), Build.walk]
  rfl

theorem ofGrammar_eq : Model.ofGrammar grammar = .ok model :=
  Build.ofGrammar_of_walk (m := linked []) (by cbv) rfl
    fun events attached => ⟨_, _, walk_eq events attached⟩

theorem ofModel_eq : Program.ofModel Sample.engine model Sample.config = .ok (program, 0) :=
  rfl

/-- What a pair without parts is read as. -/
def node : Node where
  entity := "pair"

theorem read_eq : program.read "kn" = .ok (.ok node) ∧ program.read "k" = .ok (.ok node) := by
  decide +kernel

theorem isOptional_left : model.isOptional ⟨0⟩ = .ok false := by
  cbv

theorem isOptional_right : model.isOptional ⟨1⟩ = .ok false := by
  cbv

end Gaps

/-- A pair of which no part may be left without a value has both, and a pair without parts is one of
    which both may, though none can be left unfilled. -/
theorem mandatory_filled_pair :
    (Model.ofGrammar Circle.grammar = .ok Circle.model ∧
      Program.ofModel Sample.engine Circle.model Sample.config = .ok (Circle.program, 0) ∧
      Circle.program.read "cdcd" = .ok (.ok Circle.node) ∧
      Value.Inside (.node "pair" Circle.node.fields) Circle.node.toValue ∧
      Circle.model.isOptional ⟨0⟩ = .ok false ∧ (∃ w, ("left", w) ∈ Circle.node.fields) ∧
      Circle.model.isOptional ⟨1⟩ = .ok false ∧ ∃ w, ("right", w) ∈ Circle.node.fields) ∧
    (Model.ofGrammar Gaps.grammar = .ok Gaps.model ∧
      Program.ofModel Sample.engine Gaps.model Sample.config = .ok (Gaps.program, 0) ∧
      Gaps.program.read "kn" = .ok (.ok Gaps.node) ∧
      Value.Inside (.node "pair" []) Gaps.node.toValue ∧
      Gaps.model.isOptional ⟨0⟩ = .ok false ∧ Gaps.model.Yieldless ⟨0⟩ ∧
      Gaps.model.isOptional ⟨1⟩ = .ok false ∧ Gaps.model.Yieldless ⟨1⟩) := by
  constructor
  · have hinside : Value.Inside (.node "pair" Circle.node.fields) Circle.node.toValue := .self
    obtain ⟨e, he, hfilled⟩ :=
      mandatory_filled Circle.ofGrammar_eq Circle.ofModel_eq Circle.read_eq hinside
    obtain rfl := Option.some.inj he
    have hthere : ∀ key id, Circle.pair.property? key = some id →
        Circle.model.isOptional id = .ok false → ∃ w, (key, w) ∈ Circle.node.fields := by
      intro key id hkey hoptional
      obtain ⟨b, hb, hfield⟩ := hfilled key id hkey
      rw [hoptional] at hb
      exact (hfield (Except.ok.inj hb).symm).resolve_right fun h => Circle.not_yieldless id h.2
    exact ⟨Circle.ofGrammar_eq, Circle.ofModel_eq, Circle.read_eq, hinside,
      Circle.isOptional_left, hthere "left" ⟨0⟩ rfl Circle.isOptional_left,
      Circle.isOptional_right, hthere "right" ⟨1⟩ rfl Circle.isOptional_right⟩
  · have hinside : Value.Inside (.node "pair" []) Gaps.node.toValue := .self
    obtain ⟨e, he, hfilled⟩ :=
      mandatory_filled Gaps.ofGrammar_eq Gaps.ofModel_eq Gaps.read_eq.1 hinside
    obtain rfl := Option.some.inj he
    have hwithout : ∀ key id, Gaps.pair.property? key = some id →
        Gaps.model.isOptional id = .ok false → Gaps.model.Yieldless id := by
      intro key id hkey hoptional
      obtain ⟨b, hb, hfield⟩ := hfilled key id hkey
      rw [hoptional] at hb
      obtain ⟨w, hw⟩ | ⟨_, hyieldless⟩ := hfield (Except.ok.inj hb).symm
      · exact absurd hw List.not_mem_nil
      · exact hyieldless
    exact ⟨Gaps.ofGrammar_eq, Gaps.ofModel_eq, Gaps.read_eq.1, hinside,
      Gaps.isOptional_left, hwithout "left" ⟨0⟩ rfl Gaps.isOptional_left,
      Gaps.isOptional_right, hwithout "right" ⟨1⟩ rfl Gaps.isOptional_right⟩

/-- A field may be missing for a property that cannot be left unfilled. The left part of a pair is
    virtual, and stands for nothing where the branch that matched fills no property, or is repeated
    no times; the right part stands for nothing where its mark is left out. -/
theorem mandatory_missing :
    Model.ofGrammar Gaps.grammar = .ok Gaps.model ∧
    Program.ofModel Sample.engine Gaps.model Sample.config = .ok (Gaps.program, 0) ∧
    Gaps.model.entity? "pair" = some Gaps.pair ∧
    Gaps.pair.property? "left" = some ⟨0⟩ ∧ Gaps.model.isOptional ⟨0⟩ = .ok false ∧
    Gaps.pair.property? "right" = some ⟨1⟩ ∧ Gaps.model.isOptional ⟨1⟩ = .ok false ∧
    Gaps.program.read "kn" = .ok (.ok Gaps.node) ∧ Gaps.program.read "k" = .ok (.ok Gaps.node) ∧
    Gaps.node.get? "left" = none ∧ Gaps.node.get? "right" = none :=
  ⟨Gaps.ofGrammar_eq, Gaps.ofModel_eq, rfl, rfl, Gaps.isOptional_left, rfl, Gaps.isOptional_right,
    Gaps.read_eq.1, Gaps.read_eq.2, rfl, rfl⟩

end Ebnf
