import Ebnf.Proofs.Records

/-!
# What was found on the way that is kept

A run that succeeds has kept one way: of a choice the first branch that succeeds, of a repetition
every round up to the first that fails. A leaf was found if it lies on that way. What a run records
for a flag is just that.

* `Run.Round`: the rounds of what is marked to be missing or to repeat;
* `Op.Finds`: a fixed text was found on the way that is kept;
* `Plan.finds_of_mem`, `Op.mem_of_finds`: a flag is recorded for it just then.
-/

namespace Ebnf

/-! ## 1. Rounds -/

/-- The states in which the rounds start that are kept of a step that starts in the given one. Only
    what repeats goes on after a round, as long as that moved the cursor. -/
inductive Run.Round (limit : Nat) (mods : Modifiers) (step : Run (Option Assignments)) :
    RunState → RunState → Prop where
  | first {s t : RunState} {out : Assignments} (h : step s = .ok (some out) t) :
    Round limit mods step s s
  | next {s t u : RunState} {out : Assignments} (hplural : mods.plural = true)
    (h : step s = .ok (some out) t)
    (hmoved : s.cursor.offset < t.cursor.offset ∧ t.cursor.offset ≤ limit)
    (hrest : Round limit mods step t u) : Round limit mods step s u

namespace Run

variable {limit : Nat} {mods : Modifiers} {step : Run (Option Assignments)}
  {entry : Destination × Value}

/-- What all rounds of a repetition record was recorded by one of them. -/
theorem exists_round_repeated (hplural : mods.plural = true) (s : RunState) :
    ∀ out t, repeated limit step s = .ok out t → entry ∈ out →
      ∃ u once v, Round limit mods step s u ∧ step u = .ok (some once) v ∧ entry ∈ once := by
  apply repeated_induction
  case missed => exact fun s t _ hentry => absurd hentry List.not_mem_nil
  case moved =>
    intro s first t more u hs hmoved _ ih hentry
    rcases List.mem_append.1 hentry with hentry | hentry
    · exact ⟨s, first, t, .first hs, hs, hentry⟩
    · obtain ⟨start, once, v, hround, hstep, hmem⟩ := ih hentry
      exact ⟨start, once, v, .next hplural hs hmoved hround, hstep, hmem⟩
  case last => exact fun s once t hs _ hentry => ⟨s, once, t, .first hs, hs, hentry⟩

/-- What something records as often as it is wanted was recorded by a round that is kept. -/
theorem exists_round {s t : RunState} {out : Assignments}
    (h : modified limit mods step s = .ok (some out) t) (hentry : entry ∈ out) :
    ∃ u once v, Round limit mods step s u ∧ step u = .ok (some once) v ∧ entry ∈ once := by
  cases hmods : mods.plural with
  | true =>
    rw [modified_plural step hmods] at h
    cases hrounds : repeated limit step s with
    | error f u => rw [hrounds] at h; cases h
    | ok all u =>
      rw [hrounds] at h
      cases h
      exact exists_round_repeated hmods s _ _ hrounds hentry
  | false =>
    rw [modified_single step hmods] at h
    cases hstep : step s with
    | error f u => rw [hstep] at h; cases h
    | ok found u =>
      rw [hstep] at h
      cases found with
      | some once =>
        cases h
        exact ⟨s, _, _, .first hstep, hstep, hentry⟩
      | none =>
        cases hoptional : mods.optional with
        | true =>
          simp only [hoptional, if_true] at h
          cases h
          exact absurd hentry List.not_mem_nil
        | false =>
          simp only [hoptional] at h
          cases h

/-- What a round records that is kept is recorded by a repetition. -/
theorem Round.mem_repeated {s u v : RunState} {once : Assignments}
    (h : Round limit mods step s u) (hstep : step u = .ok (some once) v) (hentry : entry ∈ once) :
    ∀ out t, repeated limit step s = .ok out t → entry ∈ out := by
  induction h with
  | first _ =>
    intro out t hout
    rw [repeated, hstep] at hout
    simp only at hout
    split at hout
    · split at hout
      · cases hout
        exact List.mem_append_left _ hentry
      · cases hout
    · cases hout
      exact hentry
  | next hplural hs hmoved _ ih =>
    intro out t hout
    rw [repeated_moved hs hmoved] at hout
    split at hout
    · next more u' hmore =>
      cases hout
      exact List.mem_append_right _ (ih hstep _ _ hmore)
    · cases hout

/-- A round that is kept has succeeded. -/
theorem Round.succeeds {s u : RunState} (h : Round limit mods step s u) :
    ∃ once v, step u = .ok (some once) v := by
  induction h with
  | first hs => exact ⟨_, _, hs⟩
  | next _ _ _ _ ih => exact ih

/-- What a round records that is kept is recorded by the whole. -/
theorem Round.mem {s t u v : RunState} {out once : Assignments} (h : Round limit mods step s u)
    (hout : modified limit mods step s = .ok (some out) t)
    (hstep : step u = .ok (some once) v) (hentry : entry ∈ once) : entry ∈ out := by
  cases hmods : mods.plural with
  | true =>
    rw [modified_plural step hmods] at hout
    cases hrounds : repeated limit step s with
    | error f u => rw [hrounds] at hout; cases hout
    | ok all u =>
      rw [hrounds] at hout
      cases hout
      exact h.mem_repeated hstep hentry _ _ hrounds
  | false =>
    cases h with
    | first _ =>
      rw [modified_single step hmods, hstep] at hout
      cases hout
      exact hentry
    | next hplural _ _ _ =>
      rw [hmods] at hplural
      contradiction

end Run

/-! ## 2. Texts that were found -/

mutual

/-- On the way that is kept of an instruction that is followed from the given state on, the fixed
    text was found whose flag goes to `d`. -/
def Op.Finds (src : Source) (inner : Name → Run (Option (Option Value))) (text : String)
    (d : Destination) : Op → RunState → Prop
  | .leaf mods token d', s =>
    token = .literal text true ∧ d' = d ∧
      ∃ u, Run.Round src.size mods (token.run src inner d') s u
  | .all mods ops, s =>
    ∃ u, Run.Round src.size mods (runAll src inner ops) s u ∧
      FindsAll src inner text d ops u
  | .any mods ops, s =>
    ∃ u, Run.Round src.size mods (runAny src inner ops) s u ∧
      FindsAny src inner text d ops u

/-- The same for instructions that are all followed, one after the other. -/
def FindsAll (src : Source) (inner : Name → Run (Option (Option Value))) (text : String)
    (d : Destination) : List Op → RunState → Prop
  | [], _ => False
  | op :: ops, s =>
    op.Finds src inner text d s ∨
      ∃ out u, op.run src inner s = .ok (some out) u ∧ FindsAll src inner text d ops u

/-- The same for instructions of which the first is kept that succeeds. -/
def FindsAny (src : Source) (inner : Name → Run (Option (Option Value))) (text : String)
    (d : Destination) : List Op → RunState → Prop
  | [], _ => False
  | op :: ops, s =>
    ((∃ out u, op.run src inner s = .ok (some out) u) ∧ op.Finds src inner text d s) ∨
      ∃ u, op.run src inner s = .ok none u ∧ FindsAny src inner text d ops u

end

variable {src : Source} {inner : Name → Run (Option (Option Value))} {text : String}
  {d : Destination}

/-- A value that was put somewhere is there. -/
theorem mem_assign {d' : Destination} {v w : Value} (h : (d, w) ∈ assign d' v) :
    d' = d ∧ d ≠ .nowhere ∧ w = v := by
  cases d' with
  | nowhere => exact absurd h List.not_mem_nil
  | elsewhere =>
    obtain ⟨rfl, rfl⟩ := Prod.mk.inj (List.mem_singleton.1 h)
    exact ⟨rfl, nofun, rfl⟩
  | field place =>
    obtain ⟨rfl, rfl⟩ := Prod.mk.inj (List.mem_singleton.1 h)
    exact ⟨rfl, nofun, rfl⟩

/-- What a token records goes where the token says. -/
theorem Token.destination_of_mem {token : Token} {d' : Destination} {s t : RunState}
    {out : Assignments} {w : Value} (h : token.run src inner d' s = .ok (some out) t)
    (hmem : (d, w) ∈ out) : d' = d ∧ d ≠ .nowhere := by
  cases token with
  | literal text witness =>
    obtain ⟨found, u, _, hnext⟩ := found_of_bind h fun _ => rfl
    cases hnext
    exact ⟨(mem_assign hmem).1, (mem_assign hmem).2.1⟩
  | pattern shown find =>
    obtain ⟨found, u, _, hnext⟩ := found_of_bind h fun _ => rfl
    cases hnext
    exact ⟨(mem_assign hmem).1, (mem_assign hmem).2.1⟩
  | entity target =>
    obtain ⟨value, u, _, hnext⟩ := found_of_bind h fun _ => rfl
    cases hnext
    cases value with
    | none => exact absurd hmem List.not_mem_nil
    | some value => exact ⟨(mem_assign hmem).1, (mem_assign hmem).2.1⟩

/-- A fixed text records a flag, if anything. -/
theorem Token.flag_of_mem {d' : Destination} {s t : RunState} {out : Assignments} {w : Value}
    (h : (Token.literal text true).run src inner d' s = .ok (some out) t) (hmem : (d, w) ∈ out) :
    w = .flag true := by
  obtain ⟨found, u, _, hnext⟩ := found_of_bind h fun _ => rfl
  cases hnext
  exact (mem_assign hmem).2.2

/-- A fixed text that was found yields a flag. -/
theorem Token.mem_of_run (hd : d ≠ .nowhere) {s t : RunState} {out : Assignments}
    (h : (Token.literal text true).run src inner d s = .ok (some out) t) :
    (d, .flag true) ∈ out := by
  obtain ⟨found, u, _, hnext⟩ := found_of_bind h fun _ => rfl
  cases hnext
  cases d with
  | nowhere => contradiction
  | elsewhere => exact List.mem_singleton_self _
  | field place => exact List.mem_singleton_self _

mutual

/-- A flag is recorded for a fixed text that was found. -/
theorem Op.mem_of_finds (hd : d ≠ .nowhere) : ∀ (op : Op) {s t : RunState} {out : Assignments},
    op.run src inner s = .ok (some out) t → op.Finds src inner text d s → (d, .flag true) ∈ out
  | .leaf mods token d', s, t, out, hrun, hfinds => by
    rw [Op.run] at hrun
    obtain ⟨rfl, rfl, u, hround⟩ := hfinds
    obtain ⟨once, v, hstep⟩ := hround.succeeds
    exact hround.mem hrun hstep (Token.mem_of_run hd hstep)
  | .all mods ops, s, t, out, hrun, hfinds => by
    rw [Op.run] at hrun
    obtain ⟨u, hround, hall⟩ := hfinds
    obtain ⟨once, v, hstep⟩ := hround.succeeds
    exact hround.mem hrun hstep (mem_of_findsAll hd ops hstep hall)
  | .any mods ops, s, t, out, hrun, hfinds => by
    rw [Op.run] at hrun
    obtain ⟨u, hround, hany⟩ := hfinds
    obtain ⟨once, v, hstep⟩ := hround.succeeds
    exact hround.mem hrun hstep (mem_of_findsAny hd ops hstep hany)

theorem mem_of_findsAll (hd : d ≠ .nowhere) :
    ∀ (ops : List Op) {s t : RunState} {out : Assignments},
      runAll src inner ops s = .ok (some out) t → FindsAll src inner text d ops s →
      (d, .flag true) ∈ out
  | [], _, _, _, _, hfinds => hfinds.elim
  | op :: ops, s, t, out, hrun, hfinds => by
    obtain ⟨first, u, more, hfirst, hmore, rfl⟩ := of_runAll_cons hrun
    rcases hfinds with hhere | ⟨out', u', hfirst', hrest⟩
    · exact List.mem_append_left _ (Op.mem_of_finds hd op hfirst hhere)
    · rw [hfirst] at hfirst'
      cases hfirst'
      exact List.mem_append_right _ (mem_of_findsAll hd ops hmore hrest)

theorem mem_of_findsAny (hd : d ≠ .nowhere) :
    ∀ (ops : List Op) {s t : RunState} {out : Assignments},
      runAny src inner ops s = .ok (some out) t → FindsAny src inner text d ops s →
      (d, .flag true) ∈ out
  | [], _, _, _, _, hfinds => hfinds.elim
  | op :: ops, s, t, out, hrun, hfinds => by
    rw [runAny] at hrun
    obtain ⟨found, u, hfound, hnext⟩ := bind_eq_ok.1 hrun
    rcases hfinds with ⟨⟨out', u', hfound'⟩, hhere⟩ | ⟨u', hfound', hrest⟩
    · rw [hfound] at hfound'
      cases hfound'
      cases hnext
      exact Op.mem_of_finds hd op hfound hhere
    · rw [hfound] at hfound'
      cases hfound'
      exact mem_of_findsAny hd ops hnext hrest

end

namespace Plan

variable {patterns : Patterns} {dest : Nat → Destination}

/-- The leaves whose value goes to `d` tell whether the fixed text was there. -/
def Tells (dest : Nat → Destination) (text : String) (d : Destination) (q : Nat)
    (symbols : List Symbol) : Prop :=
  ∀ (k : Nat) (symbol : Symbol), symbols[k]? = some symbol → dest (q + k) = d →
    symbol = .literal text true

theorem Tells.left {q : Nat} {symbols symbols' : List Symbol}
    (h : Tells dest text d q (symbols ++ symbols')) : Tells dest text d q symbols := by
  intro k symbol hk
  refine h k symbol ?_
  rwa [List.getElem?_append_left (List.getElem?_eq_some_iff.1 hk).1]

theorem Tells.right {q n : Nat} {symbols symbols' : List Symbol}
    (h : Tells dest text d q (symbols ++ symbols')) (hn : symbols.length = n) :
    Tells dest text d (q + n) symbols' := by
  intro k symbol hk hdest
  refine h (n + k) symbol ?_ (by rwa [← Nat.add_assoc])
  rwa [List.getElem?_append_right (by omega), hn, Nat.add_sub_cancel_left]

mutual

/-- What is recorded for a fixed text is a flag, and then the text was found. -/
theorem finds_of_mem {w : Value} : ∀ (p : Plan) {q : Nat}, Tells dest text d q p.symbols →
    ∀ {s t : RunState} {out : Assignments},
      (p.op patterns dest q).run src inner s = .ok (some out) t → (d, w) ∈ out →
      w = .flag true ∧ (p.op patterns dest q).Finds src inner text d s
  | leaf mods symbol slot, q, htells, s, t, out, hrun, hmem => by
    rw [op, Op.run] at hrun
    obtain ⟨u, once, v, hround, hstep, hentry⟩ := Run.exists_round hrun hmem
    obtain ⟨hdest, hd⟩ := Token.destination_of_mem hstep hentry
    cases slot with
    | none => exact absurd hdest.symm hd
    | some name =>
      obtain rfl := htells 0 symbol rfl hdest
      exact ⟨Token.flag_of_mem hstep hentry, rfl, hdest, u, hround⟩
  | node mods choice parts, q, htells, s, t, out, hrun, hmem => by
    rw [op] at hrun ⊢
    cases choice with
    | true =>
      rw [if_pos rfl] at hrun ⊢
      rw [Op.run] at hrun
      obtain ⟨u, once, v, hround, hstep, hentry⟩ := Run.exists_round hrun hmem
      obtain ⟨hflag, hfinds⟩ := findsAny_of_mem parts htells hstep hentry
      exact ⟨hflag, u, hround, hfinds⟩
    | false =>
      rw [if_neg Bool.false_ne_true] at hrun ⊢
      rw [Op.run] at hrun
      obtain ⟨u, once, v, hround, hstep, hentry⟩ := Run.exists_round hrun hmem
      obtain ⟨hflag, hfinds⟩ := findsAll_of_mem parts htells hstep hentry
      exact ⟨hflag, u, hround, hfinds⟩

theorem findsAll_of_mem {w : Value} : ∀ (ps : List Plan) {q : Nat},
    Tells dest text d q (symbolsOf ps) → ∀ {s t : RunState} {out : Assignments},
      runAll src inner (opsOf patterns dest q ps) s = .ok (some out) t → (d, w) ∈ out →
      w = .flag true ∧ FindsAll src inner text d (opsOf patterns dest q ps) s
  | [], q, _, s, t, out, hrun, hmem => by
    rw [opsOf, runAll] at hrun
    cases hrun
    exact absurd hmem List.not_mem_nil
  | p :: ps, q, htells, s, t, out, hrun, hmem => by
    rw [opsOf] at hrun
    obtain ⟨first, u, more, hfirst, hmore, rfl⟩ := of_runAll_cons hrun
    rcases List.mem_append.1 hmem with hmem | hmem
    · obtain ⟨hflag, hfinds⟩ := finds_of_mem p htells.left hfirst hmem
      exact ⟨hflag, .inl hfinds⟩
    · obtain ⟨hflag, hfinds⟩ := findsAll_of_mem ps (htells.right p.length_symbols) hmore hmem
      exact ⟨hflag, .inr ⟨first, u, hfirst, hfinds⟩⟩

theorem findsAny_of_mem {w : Value} : ∀ (ps : List Plan) {q : Nat},
    Tells dest text d q (symbolsOf ps) → ∀ {s t : RunState} {out : Assignments},
      runAny src inner (opsOf patterns dest q ps) s = .ok (some out) t → (d, w) ∈ out →
      w = .flag true ∧ FindsAny src inner text d (opsOf patterns dest q ps) s
  | [], q, _, s, t, out, hrun, _ => by
    rw [opsOf, runAny] at hrun
    cases hrun
  | p :: ps, q, htells, s, t, out, hrun, hmem => by
    rw [opsOf] at hrun
    rcases of_runAny_cons hrun with hfound | ⟨u, hfound, hrest⟩
    · obtain ⟨hflag, hfinds⟩ := finds_of_mem p htells.left hfound hmem
      exact ⟨hflag, .inl ⟨⟨_, _, hfound⟩, hfinds⟩⟩
    · obtain ⟨hflag, hfinds⟩ := findsAny_of_mem ps (htells.right p.length_symbols) hrest hmem
      exact ⟨hflag, .inr ⟨u, hfound, hfinds⟩⟩

end

end Plan

end Ebnf
