import Ebnf.Proofs.Simulation

/-!
# What a run records

A match that survives has recorded values, each with the place it goes to. The values are those of
the leaves of the plan, and where nothing repeats there is no more than one for each leaf, and for
several that are branches of the same choice.

* `Run.Yields`: what every success of a step records;
* `of_runAll_cons`, `of_runAny_cons`: which of several instructions have succeeded;
* `Recorded`: values that leaves have given;
* `Plan.most`, `Plan.tally_run`: how many values a run records;
* `Plan.Stands.most_le_one`: branches of the same choice record one value.
-/

namespace Ebnf

variable {α β : Type}

/-! ## 1. What a success records -/

/-- Every success of a step has a result of the given kind. -/
def Run.Yields (step : Run (Option α)) (Q : α → Prop) : Prop :=
  ∀ s a t, step s = .ok (some a) t → Q a

namespace Run

variable {Q : Assignments → Prop} {step : Run (Option Assignments)}

/-- Whatever every round records, and putting such records together keeps, all rounds record. -/
theorem Yields.repeated (h : Yields step Q) (hnil : Q [])
    (happend : ∀ out more, Q out → Q more → Q (out ++ more)) (limit : Nat) (s : RunState) :
    match Ebnf.repeated limit step s with
    | .ok out _ => Q out
    | .error _ _ => True := by
  cases hrounds : Ebnf.repeated limit step s with
  | error f t => trivial
  | ok out t =>
    exact repeated_induction (fun _ _ _ => hnil)
      (fun s first t more _ hs _ _ hmore => happend first more (h s first t hs) hmore)
      (fun s out t hs _ => h s out t hs) s out t hrounds

/-- Whatever a step records it records if marked to be missing or to repeat, as far as nothing and
    several rounds are that way too. -/
theorem Yields.modified (h : Yields step Q) (limit : Nat) (mods : Modifiers) (hnil : Q [])
    (happend : mods.plural = true → ∀ out more, Q out → Q more → Q (out ++ more)) :
    Yields (Ebnf.modified limit mods step) Q := by
  intro s out t hout
  cases hmods : mods.plural with
  | true =>
    have hrounds := h.repeated hnil (happend hmods) limit s
    rw [modified_plural step hmods] at hout
    split at hout
    · next more u hmore =>
      rw [hmore] at hrounds
      cases hout
      exact hrounds
    · contradiction
  | false =>
    rw [modified_single step hmods] at hout
    split at hout
    · next once u honce =>
      cases hout
      exact h s out t honce
    · cases hoptional : mods.optional with
      | true =>
        rw [hoptional] at hout
        cases hout
        exact hnil
      | false =>
        rw [hoptional] at hout
        cases hout
    · contradiction

end Run

section

variable {src : Source} {inner : Name → Run (Option (Option Value))} {op : Op} {ops : List Op}
  {s t : RunState} {out : Assignments}

/-- Where all instructions succeed, the first one does, and then the others. -/
theorem of_runAll_cons (h : runAll src inner (op :: ops) s = .ok (some out) t) :
    ∃ first u more, op.run src inner s = .ok (some first) u ∧
      runAll src inner ops u = .ok (some more) t ∧ out = first ++ more := by
  rw [runAll] at h
  obtain ⟨first, u, hfirst, hnext⟩ := found_of_bind h fun _ => rfl
  obtain ⟨more, v, hmore, hlast⟩ := found_of_bind hnext fun _ => rfl
  cases hlast
  exact ⟨first, u, more, hfirst, hmore, rfl⟩

/-- Where one of several instructions succeeds, the first one does, or fails before one of the
    others. -/
theorem of_runAny_cons (h : runAny src inner (op :: ops) s = .ok (some out) t) :
    op.run src inner s = .ok (some out) t ∨
      ∃ u, op.run src inner s = .ok none u ∧ runAny src inner ops u = .ok (some out) t := by
  rw [runAny] at h
  obtain ⟨found, u, hfound, hnext⟩ := bind_eq_ok.1 h
  cases found with
  | some once =>
    cases hnext
    exact .inl hfound
  | none => exact .inr ⟨u, hfound, hnext⟩

end

/-! ## 2. Which values a plan gives -/

/-- What may be the value of a leaf. `P` tells what may be the value of a reference. -/
def Symbol.Gives (P : Name → Value → Prop) : Symbol → Value → Prop
  | .literal _ true, v => ∃ b, v = .flag b
  | .literal _ false, v => ∃ s, v = .text s
  | .pattern _, v => ∃ s, v = .text s
  | .reference target, v => P target v

namespace Plan

mutual

/-- What the leaves that ask for a name read, in order. -/
def symbols : Plan → List Symbol
  | leaf _ symbol slot => slot.toList.map fun _ => symbol
  | node _ _ parts => symbolsOf parts

/-- What the leaves of several plans that ask for a name read. -/
def symbolsOf : List Plan → List Symbol
  | [] => []
  | p :: ps => p.symbols ++ symbolsOf ps

end

mutual

theorem map_symbol_fillers (outer : Bool) :
    ∀ p : Plan, (p.fillers outer).map Filler.symbol = p.symbols
  | leaf _ _ slot => by cases slot <;> rfl
  | node mods _ parts => map_symbol_fillersOf (outer || mods.plural) parts

theorem map_symbol_fillersOf (outer : Bool) :
    ∀ ps : List Plan, (fillersOf outer ps).map Filler.symbol = symbolsOf ps
  | [] => rfl
  | p :: ps => by
    rw [fillersOf, List.map_append, map_symbol_fillers, map_symbol_fillersOf, symbolsOf]

end

theorem length_symbols (p : Plan) : p.symbols.length = p.width := by
  rw [← map_symbol_fillers false p, List.length_map, length_fillers]

theorem length_symbolsOf (ps : List Plan) : (symbolsOf ps).length = (slotsOf ps).length := by
  rw [← map_symbol_fillersOf false ps, List.length_map, length_fillersOf]

end Plan

/-- Values of leaves that read the given symbols, with the destinations of those leaves, the first
    of which fills the property at `q`. -/
def Recorded (P : Name → Value → Prop) (dest : Nat → Destination) (q : Nat) (symbols : List Symbol)
    (out : Assignments) : Prop :=
  ∀ entry ∈ out, ∃ (k : Nat) (symbol : Symbol),
    symbols[k]? = some symbol ∧ entry.1 = dest (q + k) ∧ symbol.Gives P entry.2

namespace Recorded

variable {P : Name → Value → Prop} {dest : Nat → Destination} {q : Nat}
  {symbols symbols' : List Symbol} {out more : Assignments}

theorem nil : Recorded P dest q symbols [] :=
  fun _ h => absurd h List.not_mem_nil

theorem append (h : Recorded P dest q symbols out) (h' : Recorded P dest q symbols more) :
    Recorded P dest q symbols (out ++ more) := fun entry hentry =>
  (List.mem_append.1 hentry).elim (h entry) (h' entry)

/-- What the leaves of a plan gave was given by those of the plans it is the first of. -/
theorem left (h : Recorded P dest q symbols out) :
    Recorded P dest q (symbols ++ symbols') out := by
  intro entry hentry
  obtain ⟨k, symbol, hk, heq⟩ := h entry hentry
  refine ⟨k, symbol, ?_, heq⟩
  rw [List.getElem?_append_left (List.getElem?_eq_some_iff.1 hk).1, hk]

/-- What the leaves of the plans after the first gave was given by those of all. -/
theorem right {n : Nat} (h : Recorded P dest (q + n) symbols' out) (hn : symbols.length = n) :
    Recorded P dest q (symbols ++ symbols') out := by
  intro entry hentry
  obtain ⟨k, symbol, hk, heq, hgives⟩ := h entry hentry
  refine ⟨n + k, symbol, ?_, by rw [heq, Nat.add_assoc], hgives⟩
  rw [List.getElem?_append_right (by omega), hn, Nat.add_sub_cancel_left, hk]

end Recorded

namespace Plan

variable {src : Source} {inner : Name → Run (Option (Option Value))} {patterns : Patterns}
  {dest : Nat → Destination} {P : Name → Value → Prop}

/-- What a reference may give is what reading the entity gives. -/
def Given (inner : Name → Run (Option (Option Value))) (P : Name → Value → Prop) : Prop :=
  ∀ target, Run.Yields (inner target) fun value => ∀ v, value = some v → P target v

/-- A value is recorded with its destination, or not at all. -/
theorem assign_eq (d : Destination) (v : Value) : assign d v = [] ∨ assign d v = [(d, v)] := by
  cases d with
  | nowhere => exact .inl rfl
  | elsewhere => exact .inr rfl
  | field place => exact .inr rfl

/-- A leaf records one value at most, and only if it has a property. -/
theorem token_run (hinner : Given inner P) (symbol : Symbol) (slot : Option Name) (q : Nat) :
    Run.Yields
      ((symbol.token patterns).run src inner (if slot.isSome then dest q else .nowhere))
      fun out => out.length ≤ slot.toList.length ∧
        Recorded P dest q (slot.toList.map fun _ => symbol) out := by
  have hassign : ∀ v, symbol.Gives P v →
      (assign (if slot.isSome then dest q else .nowhere) v).length ≤ slot.toList.length ∧
      Recorded P dest q (slot.toList.map fun _ => symbol)
        (assign (if slot.isSome then dest q else .nowhere) v) := by
    intro v hv
    cases slot with
    | none => exact ⟨Nat.le_refl 0, .nil⟩
    | some name =>
      show (assign (dest q) v).length ≤ 1 ∧ Recorded P dest q [symbol] (assign (dest q) v)
      rcases assign_eq (dest q) v with heq | heq
      · rw [heq]
        exact ⟨Nat.zero_le 1, .nil⟩
      · rw [heq]
        refine ⟨Nat.le_refl 1, fun entry hentry => ⟨0, symbol, rfl, ?_⟩⟩
        rw [List.mem_singleton.1 hentry]
        exact ⟨rfl, hv⟩
  intro s out t hout
  cases symbol with
  | literal text witness =>
    obtain ⟨found, u, _, hnext⟩ := found_of_bind hout fun _ => rfl
    cases hnext
    refine hassign _ ?_
    cases witness with
    | true => exact ⟨true, rfl⟩
    | false => exact ⟨_, rfl⟩
  | pattern shown =>
    obtain ⟨found, u, _, hnext⟩ := found_of_bind hout fun _ => rfl
    cases hnext
    exact hassign _ ⟨_, rfl⟩
  | reference target =>
    obtain ⟨value, u, hfound, hnext⟩ := found_of_bind hout fun _ => rfl
    cases hnext
    cases value with
    | none => exact ⟨Nat.zero_le _, .nil⟩
    | some value => exact hassign _ (hinner target s _ _ hfound value rfl)

/-! ## 3. How many values a run records -/

mutual

/-- The number of values that a plan records at most where nothing that counts repeats. `counts`
    tells which properties count, the first of which stands at `q`. -/
def most (counts : Nat → Bool) (q : Nat) : Plan → Nat
  | leaf _ _ slot => if slot.isSome && counts q then 1 else 0
  | node _ choice parts => mostOf counts choice q parts

/-- The number of values that one of several plans records at most, or all of them together. -/
def mostOf (counts : Nat → Bool) (choice : Bool) (q : Nat) : List Plan → Nat
  | [] => 0
  | p :: ps =>
    if choice then max (p.most counts q) (mostOf counts choice (q + p.width) ps)
    else p.most counts q + mostOf counts choice (q + p.width) ps

end

variable {D : Destination → Bool}

/-- Nothing counts that goes to destinations that do not. -/
theorem countP_eq_zero {q : Nat} {symbols : List Symbol} {out : Assignments}
    (h : Recorded P dest q symbols out) (hD : ∀ k < symbols.length, D (dest (q + k)) = false) :
    out.countP (D ·.1) = 0 := by
  rw [List.countP_eq_zero]
  intro entry hentry
  obtain ⟨k, symbol, hk, heq, _⟩ := h entry hentry
  rw [heq, hD k (List.getElem?_eq_some_iff.1 hk).1]
  exact Bool.false_ne_true

/-- Values were recorded by leaves that read the given symbols, and no more of them count than
    said. -/
def Tally (P : Name → Value → Prop) (dest : Nat → Destination) (D : Destination → Bool) (q : Nat)
    (symbols : List Symbol) (most : Nat) (out : Assignments) : Prop :=
  Recorded P dest q symbols out ∧ out.countP (D ·.1) ≤ most

/-- The leaves that count do not repeat, nor does anything around them. -/
def Single (dest : Nat → Destination) (D : Destination → Bool) (q : Nat) (fs : List Filler) :
    Prop :=
  ∀ k f, fs[k]? = some f → D (dest (q + k)) = true → f.plural = false

theorem Single.left {q : Nat} {fs fs' : List Filler} (h : Single dest D q (fs ++ fs')) :
    Single dest D q fs := by
  intro k f hk
  have hlt := (List.getElem?_eq_some_iff.1 hk).1
  exact h k f (by rwa [List.getElem?_append_left hlt])

theorem Single.right {q n : Nat} {fs fs' : List Filler} (h : Single dest D q (fs ++ fs'))
    (hn : fs.length = n) : Single dest D (q + n) fs' := by
  intro k f hk hD
  refine h (n + k) f ?_ (by rwa [← Nat.add_assoc])
  rwa [List.getElem?_append_right (by omega), hn, Nat.add_sub_cancel_left]

/-- Where something repeats that single leaves are in, nothing counts. -/
theorem Single.eq_false {q : Nat} {fs : List Filler} (h : Single dest D q fs)
    (hplural : ∀ f ∈ fs, f.plural = true) : ∀ k < fs.length, D (dest (q + k)) = false := by
  intro k hk
  cases hD : D (dest (q + k)) with
  | false => rfl
  | true =>
    have hget := List.getElem?_eq_getElem hk
    have hsingle := h k _ hget hD
    rw [hplural _ (List.mem_of_getElem? hget)] at hsingle
    contradiction

/-- Marks do not make a run record more than once, unless nothing that it records counts. -/
theorem tally_modified {step : Run (Option Assignments)} {q most : Nat} {symbols : List Symbol}
    (h : Run.Yields step (Tally P dest D q symbols most)) (limit : Nat) (mods : Modifiers)
    (hplural : mods.plural = true → ∀ k < symbols.length, D (dest (q + k)) = false) :
    Run.Yields (modified limit mods step) (Tally P dest D q symbols most) := by
  refine h.modified limit mods ⟨.nil, Nat.zero_le _⟩ fun hmods out more hout hmore => ?_
  have hboth := hout.1.append hmore.1
  refine ⟨hboth, ?_⟩
  rw [countP_eq_zero hboth (hplural hmods)]
  exact Nat.zero_le _

mutual

/-- A run of a plan records no more values that count than the plan says, as long as nothing that
    counts repeats. -/
theorem tally_run (hinner : Given inner P) : ∀ (p : Plan) (q : Nat),
    Single dest D q (p.fillers false) →
    Run.Yields ((p.op patterns dest q).run src inner)
      (Tally P dest D q p.symbols (p.most (D ∘ dest) q))
  | leaf mods symbol slot, q, hsingle => by
    rw [op, Op.run]
    refine tally_modified (fun s out t hout => ?_) _ mods fun hmods k hk => ?_
    · obtain ⟨hlength, hrecorded⟩ := token_run hinner symbol slot q s out t hout
      refine ⟨hrecorded, ?_⟩
      have hcount : out.countP (D ·.1) ≤ out.length := List.countP_le_length
      cases slot with
      | none => exact Nat.le_trans hcount hlength
      | some name =>
        cases hD : D (dest q) with
        | true =>
          simp only [most, Function.comp, hD]
          exact Nat.le_trans hcount hlength
        | false =>
          have hzero := countP_eq_zero (D := D) hrecorded fun k hk => by
            obtain rfl : k = 0 := Nat.lt_one_iff.1 hk
            exact hD
          simp only [most, Function.comp, hD, hzero]
          exact Nat.zero_le _
    · cases slot with
      | none => exact absurd hk (Nat.not_lt_zero k)
      | some name =>
        obtain rfl : k = 0 := Nat.lt_one_iff.1 hk
        cases hD : D (dest (q + 0)) with
        | false => rfl
        | true =>
          have := hsingle 0 _ rfl hD
          simp [hmods] at this
  | node mods choice parts, q, hsingle => by
    rw [fillers] at hsingle
    have hplural : mods.plural = true → ∀ k < (symbolsOf parts).length,
        D (dest (q + k)) = false := by
      intro hmods
      rw [hmods] at hsingle
      rw [length_symbolsOf, ← length_fillersOf true parts]
      exact hsingle.eq_false fun f hf => plural_of_mem_fillersOf hf
    have hparts : Single dest D q (fillersOf false parts) := by
      cases hmods : mods.plural with
      | false => rwa [hmods] at hsingle
      | true =>
        intro k f hk hD
        have hlt := (List.getElem?_eq_some_iff.1 hk).1
        rw [length_fillersOf, ← length_symbolsOf] at hlt
        rw [hplural hmods k hlt] at hD
        contradiction
    rw [op]
    cases choice with
    | true =>
      rw [if_pos rfl, Op.run]
      exact tally_modified (tally_runAny hinner parts q hparts) _ mods hplural
    | false =>
      rw [if_neg Bool.false_ne_true, Op.run]
      exact tally_modified (tally_runAll hinner parts q hparts) _ mods hplural

theorem tally_runAny (hinner : Given inner P) : ∀ (ps : List Plan) (q : Nat),
    Single dest D q (fillersOf false ps) →
    Run.Yields (runAny src inner (opsOf patterns dest q ps))
      (Tally P dest D q (symbolsOf ps) (mostOf (D ∘ dest) true q ps))
  | [], q, _ => by
    intro s out t hout
    rw [opsOf, runAny] at hout
    cases hout
  | p :: ps, q, hsingle => by
    rw [fillersOf] at hsingle
    rw [symbolsOf, mostOf, if_pos rfl]
    intro s out t hout
    rw [opsOf] at hout
    rcases of_runAny_cons hout with hrun | ⟨u, _, hrest⟩
    · obtain ⟨hrecorded, hcount⟩ := tally_run hinner p q hsingle.left s out t hrun
      exact ⟨hrecorded.left, Nat.le_trans hcount (Nat.le_max_left ..)⟩
    · obtain ⟨hrecorded, hcount⟩ :=
        tally_runAny hinner ps (q + p.width) (hsingle.right (p.length_fillers false)) u out t hrest
      exact ⟨hrecorded.right p.length_symbols, Nat.le_trans hcount (Nat.le_max_right ..)⟩

theorem tally_runAll (hinner : Given inner P) : ∀ (ps : List Plan) (q : Nat),
    Single dest D q (fillersOf false ps) →
    Run.Yields (runAll src inner (opsOf patterns dest q ps))
      (Tally P dest D q (symbolsOf ps) (mostOf (D ∘ dest) false q ps))
  | [], q, _ => by
    intro s out t hout
    rw [opsOf, runAll] at hout
    cases hout
    exact ⟨.nil, Nat.le_refl 0⟩
  | p :: ps, q, hsingle => by
    rw [fillersOf] at hsingle
    rw [symbolsOf, mostOf, if_neg Bool.false_ne_true]
    intro s out t hout
    rw [opsOf] at hout
    obtain ⟨first, u, more, hrun, hrest, rfl⟩ := of_runAll_cons hout
    obtain ⟨hrecorded, hcount⟩ := tally_run hinner p q hsingle.left s first u hrun
    obtain ⟨hrecorded', hcount'⟩ :=
      tally_runAll hinner ps (q + p.width) (hsingle.right (p.length_fillers false)) u more t hrest
    refine ⟨Recorded.append hrecorded.left (hrecorded'.right p.length_symbols), ?_⟩
    rw [List.countP_append]
    exact Nat.add_le_add hcount hcount'

end

/-! ## 4. When it is one at most -/

variable {counts : Nat → Bool}

mutual

/-- No more values count than there are properties. -/
theorem most_le_width : ∀ (p : Plan) (q : Nat), p.most counts q ≤ p.width
  | leaf mods symbol slot, q => by
    rw [most]
    cases slot with
    | none => exact Nat.le_refl 0
    | some name =>
      show (if counts q then 1 else 0) ≤ 1
      split <;> omega
  | node mods choice parts, q => mostOf_le_length choice parts q

theorem mostOf_le_length (choice : Bool) :
    ∀ (ps : List Plan) (q : Nat), mostOf counts choice q ps ≤ (slotsOf ps).length
  | [], q => Nat.le_refl 0
  | p :: ps, q => by
    have hfirst := most_le_width p q
    have hrest := mostOf_le_length choice ps (q + p.width)
    rw [mostOf, slotsOf, List.length_append]
    rw [width] at hfirst hrest ⊢
    split <;> omega

end

mutual

/-- If just one property counts, one value does, and only where that property is. -/
theorem most_single {b c : Nat} (hcounts : ∀ j, b ≤ j → counts j = true → j = c) :
    ∀ (p : Plan) (q : Nat), b ≤ q →
      p.most counts q ≤ 1 ∧ (p.most counts q = 0 ∨ q ≤ c ∧ c < q + p.width)
  | leaf mods symbol slot, q, hq => by
    rw [most]
    cases slot with
    | none => exact ⟨Nat.zero_le 1, .inl rfl⟩
    | some name =>
      cases hc : counts q with
      | false => exact ⟨Nat.zero_le 1, .inl rfl⟩
      | true =>
        obtain rfl := hcounts q hq hc
        exact ⟨Nat.le_refl 1, .inr ⟨Nat.le_refl q, Nat.lt_succ_self q⟩⟩
  | node mods choice parts, q, hq => mostOf_single hcounts choice parts q hq

theorem mostOf_single {b c : Nat} (hcounts : ∀ j, b ≤ j → counts j = true → j = c)
    (choice : Bool) : ∀ (ps : List Plan) (q : Nat), b ≤ q →
      mostOf counts choice q ps ≤ 1 ∧
        (mostOf counts choice q ps = 0 ∨ q ≤ c ∧ c < q + (slotsOf ps).length)
  | [], q, hq => ⟨Nat.zero_le 1, .inl rfl⟩
  | p :: ps, q, hq => by
    have hfirst := most_single hcounts p q hq
    have hrest := mostOf_single hcounts choice ps (q + p.width)
      (Nat.le_trans hq (Nat.le_add_right ..))
    rw [mostOf, slotsOf, List.length_append]
    rw [width] at hfirst hrest ⊢
    split <;> omega

end

variable {m : Model} {entity : Name} {link : ActionId → Option PropertyId}

/-- Every leaf with a property, of those from the place `q` on, is a branch of the same choice. -/
def Branches (m : Model) (c : ActionId) (q n : Nat) : Prop :=
  ∀ k < n, ∃ p x, m.properties[q + k]? = some p ∧ m.actions[p.source.index]? = some x ∧
    x.parent = some c

theorem Branches.left {m : Model} {c : ActionId} {q n k : Nat} (h : Branches m c q (n + k)) :
    Branches m c q n :=
  fun i hi => h i (Nat.lt_add_right k hi)

theorem Branches.right {m : Model} {c : ActionId} {q n k : Nat} (h : Branches m c q (n + k)) :
    Branches m c (q + n) k := by
  intro i hi
  rw [Nat.add_assoc]
  exact h (n + i) (Nat.add_lt_add_left hi n)

/-- The choice of leaves of a row that it does not belong to itself is in the row. -/
theorem StandInRow.within {a q b : Nat} {outer : Bool} {parent : Option ActionId} {ps : List Plan}
    {c : ActionId} (h : StandInRow m entity link a q parent ps) (hb : a + sizes ps ≤ b)
    (haround : Around m b outer parent) (hbranches : Branches m c q (slotsOf ps).length)
    (hwidth : 0 < (slotsOf ps).length) (hparent : parent ≠ some c) :
    a ≤ c.index ∧ c.index < a + sizes ps := by
  have hlt : 0 < (fillersOf outer ps).length := by rwa [length_fillersOf]
  obtain ⟨i, x, hfills⟩ := h.slot hb haround (List.getElem?_eq_getElem hlt)
  obtain ⟨name, hproperty⟩ := hfills.property
  obtain ⟨p, y, hp, hy, hyparent⟩ := hbranches 0 hwidth
  obtain rfl := Option.some.inj (hp.symm.trans hproperty)
  obtain rfl := Option.some.inj (hy.symm.trans hfills.action)
  rcases h.parent hfills.within.1 hfills.within.2 hfills.action with hself | ⟨j, hj, hij, hlt⟩
  · exact absurd (hself.symm.trans hyparent) hparent
  · obtain rfl := Option.some.inj (hj.symm.trans hyparent)
    exact ⟨Nat.le_of_lt (Nat.lt_of_le_of_lt hfills.within.1 hij), hlt⟩

mutual

/-- If all leaves with properties are branches of the same choice, one value is recorded. -/
theorem Stands.most_le_one {a q b : Nat} {outer : Bool} {parent : Option ActionId} {c : ActionId}
    (hchoice : ∃ y, m.actions[c.index]? = some y ∧ y.isChoice = true) :
    ∀ {p : Plan}, p.Stands m entity link a q parent → a + p.size ≤ b → Around m b outer parent →
      Branches m c q p.width → p.most counts q ≤ 1
  | leaf mods symbol slot, _, _, _, _ => by
    refine Nat.le_trans (most_le_width _ q) ?_
    cases slot with
    | none => exact Nat.zero_le 1
    | some name => exact Nat.le_refl 1
  | node mods choice parts, h, hb, haround, hbranches => by
    refine StandInRow.mostOf_le_one hchoice h.1 (Nat.le_refl _) (around_parts h hb haround)
      hbranches fun hsequence heq => ?_
    obtain ⟨y, hy, hchoice⟩ := hchoice
    obtain rfl := Option.some.inj heq
    obtain rfl := Option.some.inj (h.2.symm.trans hy)
    subst hsequence
    exact absurd hchoice Bool.false_ne_true

theorem StandInRow.mostOf_le_one {a q b : Nat} {outer choice : Bool} {parent : Option ActionId}
    {c : ActionId} (hchoice : ∃ y, m.actions[c.index]? = some y ∧ y.isChoice = true) :
    ∀ {ps : List Plan}, StandInRow m entity link a q parent ps → a + sizes ps ≤ b →
      Around m b outer parent → Branches m c q (slotsOf ps).length →
      (choice = false → parent ≠ some c) → mostOf counts choice q ps ≤ 1
  | [], _, _, _, _, _ => Nat.zero_le 1
  | p :: ps, h, hb, haround, hbranches, hparent => by
    rw [sizes, ← Nat.add_assoc] at hb
    rw [slotsOf, List.length_append] at hbranches
    have hfirst : Branches m c q p.width := hbranches.left
    have hrest : Branches m c (q + p.width) (slotsOf ps).length := hbranches.right
    have hpb : a + p.size ≤ b := Nat.le_trans (Nat.le_add_right ..) hb
    have hone : p.most counts q ≤ 1 := h.1.most_le_one hchoice hpb haround hfirst
    have hothers : mostOf counts choice (q + p.width) ps ≤ 1 :=
      h.2.mostOf_le_one hchoice hb haround hrest hparent
    rw [mostOf]
    cases choice with
    | true =>
      rw [if_pos rfl]
      exact Nat.max_le.2 ⟨hone, hothers⟩
    | false =>
      rw [if_neg Bool.false_ne_true]
      -- a choice that is in one part is in no other
      rcases Nat.eq_zero_or_pos p.width with hzero | hpos
      · have : p.most counts q ≤ p.width := most_le_width p q
        omega
      · have hin : StandInRow m entity link a q parent [p] := ⟨h.1, trivial⟩
        have hc := hin.within (by simpa [sizes] using hpb) haround
          (by simpa [slotsOf, width] using hfirst) (by simpa [slotsOf, width] using hpos)
          (hparent rfl)
        rcases Nat.eq_zero_or_pos (slotsOf ps).length with hzero | hpos'
        · have : mostOf counts false (q + p.width) ps ≤ (slotsOf ps).length :=
            mostOf_le_length false ps (q + p.width)
          omega
        · have hc' := h.2.within hb haround hrest hpos' (hparent rfl)
          simp only [sizes, Nat.add_zero] at hc
          omega

end

end Plan

end Ebnf
