import Mathlib
import Ebnf.Proofs.Backtracking
import Ebnf.Proofs.Instances
import Ebnf.Proofs.Kept

/-!
# The rounds in which values are read

A repetition ends with a round that fails, which is undone, or with one that succeeds without moving
the cursor. What the latter has read is kept: a repetition of something that may be empty ends with
a value for which nothing was read. Any other value was read in rounds that moved the cursor.

* `Lap`, `Entry`: rounds, and values with the rounds around them;
* `Op.entries`, `Op.erases`: a run that also notes the rounds reads the same;
* `Plan.traced_entries`: what repeats was read in a round, and only the last round may stand still;
* `Op.eq_once_of_still`: a repetition that stands still has had one round at most;
* `values_of_rounds`: which values a list holds.
-/

namespace Ebnf

/-! ## 1. Values with their rounds -/

/-- A round of a repetition that succeeded. -/
structure Lap where
  /-- The offset where it started. -/
  start : Nat
  /-- The offset where it ended. -/
  stop : Nat
  /-- How many rounds of the repetition came after it. -/
  later : Nat
deriving DecidableEq, Repr

/-- A value that was read. -/
structure Entry where
  /-- The place it goes to. -/
  destination : Destination
  /-- The value. -/
  value : Value
  /-- The rounds in which it was read, from the inside out. -/
  laps : List Lap := []
deriving DecidableEq

/-- A round that moved the cursor. -/
def Lap.Moves (lap : Lap) : Prop :=
  lap.start < lap.stop

/-- The last round of a repetition that left the cursor where it was. -/
def Lap.Idles (lap : Lap) : Prop :=
  lap.start = lap.stop ∧ lap.later = 0

instance (lap : Lap) : Decidable lap.Moves :=
  inferInstanceAs (Decidable (lap.start < lap.stop))

instance (lap : Lap) : Decidable lap.Idles :=
  inferInstanceAs (Decidable (lap.start = lap.stop ∧ lap.later = 0))

namespace Entry

/-- The value as a run records it. -/
def plain (entry : Entry) : Destination × Value :=
  (entry.destination, entry.value)

/-- The value with one more round around it. -/
def within (lap : Lap) (entry : Entry) : Entry :=
  { entry with laps := entry.laps ++ [lap] }

/-- The value without any round around it. -/
def ofPlain (recorded : Destination × Value) : Entry where
  destination := recorded.1
  value := recorded.2

end Entry

/-- The values as a run records them. -/
def plains (entries : List Entry) : Assignments :=
  entries.map Entry.plain

/-- The values that go to a field. -/
def entriesAt (place : Nat) (entries : List Entry) : List Entry :=
  entries.filter (·.destination = .field place)

/-- The values of all rounds, each with its round. -/
def gather (rounds : List (Lap × List Entry)) : List Entry :=
  rounds.flatMap fun (lap, entries) => entries.map (Entry.within lap)

/-- The rounds of a repetition. A failure at the end is undone. -/
def rounds (limit : Nat) (step : Run (Option (List Entry))) (s : RunState) :
    EStateM.Result Fault RunState (List (Lap × List Entry)) :=
  match step s with
  | .error f t => .error f t
  | .ok none t => .ok [] { t with cursor := t.cursor.moveTo s.cursor.offset }
  | .ok (some entries) t =>
    if s.cursor.offset < t.cursor.offset ∧ t.cursor.offset ≤ limit then
      match rounds limit step t with
      | .ok more u => .ok ((⟨s.cursor.offset, t.cursor.offset, more.length⟩, entries) :: more) u
      | .error f u => .error f u
    else .ok [(⟨s.cursor.offset, t.cursor.offset, 0⟩, entries)] t
termination_by limit - s.cursor.offset

/-- The values of something that is read as often as it is wanted. -/
def marked (limit : Nat) (mods : Modifiers) (step : Run (Option (List Entry))) :
    Run (Option (List Entry)) := fun s =>
  if mods.plural then
    match rounds limit step s with
    | .ok all t => .ok (some (gather all)) t
    | .error f t => .error f t
  else
    match step s with
    | .ok (some entries) t => .ok (some entries) t
    | .ok none t => .ok (if mods.optional then some [] else none)
        { t with cursor := t.cursor.moveTo s.cursor.offset }
    | .error f t => .error f t

/-- The value of a token. -/
def Token.entries (src : Source) (entity : Name → Run (Option (Option Value)))
    (destination : Destination) (token : Token) : Run (Option (List Entry)) := fun s =>
  match token.run src entity destination s with
  | .ok found t => .ok (found.map (List.map Entry.ofPlain)) t
  | .error f t => .error f t

mutual

/-- Follows an instruction, and notes the rounds in which each value is read. -/
def Op.entries (src : Source) (entity : Name → Run (Option (Option Value))) :
    Op → Run (Option (List Entry))
  | .leaf mods token destination => marked src.size mods (token.entries src entity destination)
  | .all mods ops => marked src.size mods (entriesAll src entity ops)
  | .any mods ops => marked src.size mods (entriesAny src entity ops)

/-- Follows every instruction in order. -/
def entriesAll (src : Source) (entity : Name → Run (Option (Option Value))) :
    List Op → Run (Option (List Entry))
  | [] => return some []
  | op :: ops => do
    let some out ← op.entries src entity | return none
    let some more ← entriesAll src entity ops | return none
    return some (out ++ more)

/-- Follows the first instruction that succeeds. -/
def entriesAny (src : Source) (entity : Name → Run (Option (Option Value))) :
    List Op → Run (Option (List Entry))
  | [] => return none
  | op :: ops => do
    match ← op.entries src entity with
    | some out => return some out
    | none => entriesAny src entity ops

end

/-- The values that the surviving match of an entity records, with their rounds. -/
def Program.entries (p : Program) (src : Source) : Nat → Name → Run (Option (List Entry))
  | 0, name => do
    Run.tell (.tooDeep name)
    modify fun s => { s with overflow := s.overflow.or (some name) }
    return none
  | depth + 1, name => do
    let some procedure := p.procedure? name | return none
    let some body := procedure.body | return none
    Run.tell (.entityTried name (← Run.offset))
    let op ← Run.check body
    op.entries src (p.inner src depth)

/-! ## 2. The rounds make no difference -/

@[simp] theorem plains_append (out more : List Entry) :
    plains (out ++ more) = plains out ++ plains more :=
  List.map_append

@[simp] theorem plains_within (lap : Lap) (out : List Entry) :
    plains (out.map (Entry.within lap)) = plains out :=
  List.map_map

@[simp] theorem plains_ofPlain (out : Assignments) : plains (out.map Entry.ofPlain) = out :=
  (List.map_map).trans (List.map_id out)

theorem gather_cons (lap : Lap) (out : List Entry) (more : List (Lap × List Entry)) :
    gather ((lap, out) :: more) = out.map (Entry.within lap) ++ gather more :=
  List.flatMap_cons

theorem valuesAt_plains (place : Nat) (entries : List Entry) :
    valuesAt place (plains entries) = (entriesAt place entries).map Entry.value := by
  rw [valuesAt, plains, entriesAt, List.filter_map, List.map_map]
  rfl

namespace Run

variable {α : Type} {step next : Run (Option (List Entry))} {run run' : Run (Option Assignments)}

/-- A step does what another one does, and notes the rounds of what that yields. -/
def Erases (step : Run (Option (List Entry))) (run : Run (Option Assignments)) : Prop :=
  ∀ s, run s = match step s with
    | .ok found t => .ok (found.map plains) t
    | .error f t => .error f t

theorem Erases.ok (h : Erases step run) {s t : RunState} {found : Option (List Entry)}
    (hs : step s = .ok found t) : run s = .ok (found.map plains) t := by
  rw [h s, hs]

/-- Wherever one of the two succeeds, so does the other. -/
theorem Erases.exists_ok (h : Erases step run) {s t : RunState} {found : Option Assignments}
    (hs : run s = .ok found t) : ∃ noted, step s = .ok noted t ∧ noted.map plains = found := by
  rw [h s] at hs
  cases hstep : step s with
  | error f u => rw [hstep] at hs; cases hs
  | ok noted u =>
    rw [hstep] at hs
    cases hs
    exact ⟨noted, rfl, rfl⟩

theorem Erases.advances (h : Erases step run) (hrun : Advances run) : Advances step :=
  fun s _ t hs => hrun s _ t (h.ok hs)

/-- All rounds of a repetition read what the repetition reads. -/
theorem Erases.rounds (h : Erases step run) (limit : Nat) (s : RunState) :
    repeated limit run s = match Ebnf.rounds limit step s with
      | .ok all t => .ok (plains (gather all)) t
      | .error f t => .error f t := by
  induction s using Ebnf.rounds.induct limit step with
  | case1 s f t hs => rw [repeated, Ebnf.rounds, h s, hs]
  | case2 s t hs =>
    rw [repeated, Ebnf.rounds, h s, hs]
    rfl
  | case3 s out t hs hmoved more u hmore ih =>
    rw [hmore] at ih
    rw [repeated, Ebnf.rounds, h s, hs]
    simp only [Option.map_some, if_pos hmoved, hmore, ih]
    rw [gather_cons, plains_append, plains_within]
  | case4 s out t hs hmoved f u hmore ih =>
    rw [hmore] at ih
    rw [repeated, Ebnf.rounds, h s, hs]
    simp only [Option.map_some, if_pos hmoved, hmore, ih]
  | case5 s out t hs hmoved =>
    rw [repeated, Ebnf.rounds, h s, hs]
    simp only [Option.map_some, if_neg hmoved]
    rw [gather_cons, plains_append, plains_within]
    exact congrArg (fun out => EStateM.Result.ok out t) (List.append_nil _).symm

theorem Erases.marked (h : Erases step run) (limit : Nat) (mods : Modifiers) :
    Erases (Ebnf.marked limit mods step) (modified limit mods run) := by
  intro s
  rw [Ebnf.marked]
  cases hmods : mods.plural with
  | true =>
    rw [modified_plural run hmods, h.rounds, if_pos rfl]
    cases Ebnf.rounds limit step s <;> rfl
  | false =>
    rw [modified_single run hmods, h s, if_neg Bool.false_ne_true]
    cases step s with
    | error f t => rfl
    | ok found t =>
      cases found with
      | some out => rfl
      | none => cases mods.optional <;> rfl

theorem Erases.both (h : Erases step run) (hnext : Erases next run') :
    Erases (do
      let some out ← step | return none
      let some more ← next | return none
      return some (out ++ more)) (do
      let some out ← run | return none
      let some more ← run' | return none
      return some (out ++ more)) := by
  intro s
  rw [bind_apply, bind_apply, h s]
  cases step s with
  | error f t => rfl
  | ok found t =>
    cases found with
    | none => rfl
    | some out =>
      simp only [Option.map_some, bind_apply, hnext t]
      cases next t with
      | error f u => rfl
      | ok found u =>
        cases found with
        | none => rfl
        | some more =>
          exact congrArg (fun out => EStateM.Result.ok (some out) u) (plains_append out more).symm

theorem Erases.either (h : Erases step run) (hnext : Erases next run') :
    Erases (do
      match ← step with
      | some out => return some out
      | none => next) (do
      match ← run with
      | some out => return some out
      | none => run') := by
  intro s
  rw [bind_apply, bind_apply, h s]
  cases step s with
  | error f t => rfl
  | ok found t =>
    cases found with
    | none => exact hnext t
    | some out => rfl

theorem Erases.after {pre : Run α} {next : α → Run (Option (List Entry))}
    {next' : α → Run (Option Assignments)} (h : ∀ a, Erases (next a) (next' a)) :
    Erases (pre >>= next) (pre >>= next') := by
  intro s
  rw [bind_apply, bind_apply]
  cases pre s with
  | error f t => rfl
  | ok a t => exact h a t

end Run

section

variable {src : Source} {inner : Name → Run (Option (Option Value))}

theorem Token.erases (token : Token) (destination : Destination) :
    Run.Erases (token.entries src inner destination) (token.run src inner destination) := by
  intro s
  rw [Token.entries]
  cases token.run src inner destination s with
  | error f t => rfl
  | ok found t =>
    cases found with
    | none => rfl
    | some out =>
      exact congrArg (fun out => EStateM.Result.ok (some out) t) (plains_ofPlain out).symm

mutual

/-- Following an instruction with a note of the rounds yields what following it yields. -/
theorem Op.erases : ∀ op : Op, Run.Erases (op.entries src inner) (op.run src inner)
  | .leaf mods token destination => by
    rw [Op.entries, Op.run]
    exact (token.erases destination).marked src.size mods
  | .all mods ops => by
    rw [Op.entries, Op.run]
    exact (erases_all ops).marked src.size mods
  | .any mods ops => by
    rw [Op.entries, Op.run]
    exact (erases_any ops).marked src.size mods

theorem erases_all : ∀ ops : List Op, Run.Erases (entriesAll src inner ops) (runAll src inner ops)
  | [] => by
    rw [entriesAll, runAll]
    exact fun _ => rfl
  | op :: ops => by
    rw [entriesAll, runAll]
    exact op.erases.both (erases_all ops)

theorem erases_any : ∀ ops : List Op, Run.Erases (entriesAny src inner ops) (runAny src inner ops)
  | [] => by
    rw [entriesAny, runAny]
    exact fun _ => rfl
  | op :: ops => by
    rw [entriesAny, runAny]
    exact op.erases.either (erases_any ops)

end

end

/-- The match of an entity with a note of the rounds records what the match records. -/
theorem Program.erases (p : Program) (src : Source) (depth : Nat) (name : Name) :
    Run.Erases (p.entries src depth name) (p.collect src depth name) := by
  cases depth with
  | zero => exact fun _ => rfl
  | succ depth =>
    rw [Program.entries, Program.collect]
    cases p.procedure? name with
    | none => exact fun _ => rfl
    | some procedure =>
      cases hbody : procedure.body with
      | none => simp only [hbody]; exact fun _ => rfl
      | some body =>
        simp only [hbody]
        exact .after fun o => .after fun _ => .after fun op => op.erases

/-! ## 3. Only the last round stands still -/

/-- Each round in which the value was read moved the cursor, but for the last one of a
    repetition. -/
def Entry.Fair (entry : Entry) : Prop :=
  ∀ lap ∈ entry.laps, lap.Moves ∨ lap.Idles

theorem Entry.Fair.within {entry : Entry} {lap : Lap} (h : entry.Fair)
    (hlap : lap.Moves ∨ lap.Idles) : (entry.within lap).Fair := by
  intro lap' hmem
  rcases List.mem_append.1 hmem with hmem | hmem
  · exact h lap' hmem
  · rw [List.mem_singleton.1 hmem]
    exact hlap

namespace Run

variable {limit : Nat} {mods : Modifiers} {step : Run (Option (List Entry))}

/-- A round of a repetition has succeeded, and moved the cursor unless it is the last one. -/
theorem Advances.of_mem_rounds (h : Advances step) (s : RunState) :
    ∀ all t, rounds limit step s = .ok all t → ∀ lap out, (lap, out) ∈ all →
      (lap.Moves ∨ lap.Idles) ∧ ∃ u v, step u = .ok (some out) v := by
  induction s using rounds.induct limit step with
  | case1 s f t hs =>
    intro all u hall
    rw [rounds, hs] at hall
    cases hall
  | case2 s t hs =>
    intro all u hall lap out hmem
    rw [rounds, hs] at hall
    cases hall
    exact absurd hmem List.not_mem_nil
  | case3 s first t hs hmoved more u hmore ih =>
    intro all v hall lap out hmem
    rw [rounds, hs] at hall
    simp only [if_pos hmoved, hmore] at hall
    cases hall
    rcases List.mem_cons.1 hmem with heq | hmem
    · cases heq
      exact ⟨.inl hmoved.1, s, t, hs⟩
    · exact ih more u hmore lap out hmem
  | case4 s first t hs hmoved f u hmore ih =>
    intro all v hall
    rw [rounds, hs] at hall
    simp only [if_pos hmoved, hmore] at hall
    cases hall
  | case5 s first t hs hmoved =>
    intro all v hall lap out hmem
    rw [rounds, hs] at hall
    simp only [if_neg hmoved] at hall
    cases hall
    cases List.mem_singleton.1 hmem
    refine ⟨?_, s, t, hs⟩
    rcases Nat.lt_or_eq_of_le (h s _ t hs) with hlt | heq
    · exact .inl hlt
    · exact .inr ⟨heq, rfl⟩

/-- What is read as often as it is wanted was read once, or in a round. -/
theorem Advances.of_mem_marked (h : Advances step) {s t : RunState} {out : List Entry}
    (hout : marked limit mods step s = .ok (some out) t) {entry : Entry} (hmem : entry ∈ out) :
    ∃ once u v, step u = .ok (some once) v ∧
      ((mods.plural = false ∧ entry ∈ once) ∨
        (mods.plural = true ∧ ∃ lap, ∃ entry' ∈ once, entry = entry'.within lap ∧
          (lap.Moves ∨ lap.Idles))) := by
  rw [marked] at hout
  cases hmods : mods.plural with
  | true =>
    rw [if_pos hmods] at hout
    cases hall : rounds limit step s with
    | error f u => rw [hall] at hout; cases hout
    | ok all u =>
      rw [hall] at hout
      cases hout
      obtain ⟨⟨lap, once⟩, hround, hmem⟩ := List.mem_flatMap.1 hmem
      obtain ⟨entry', hentry', rfl⟩ := List.mem_map.1 hmem
      obtain ⟨hlap, u, v, honce⟩ := h.of_mem_rounds s all t hall lap once hround
      exact ⟨once, u, v, honce, .inr ⟨rfl, lap, entry', hentry', rfl, hlap⟩⟩
  | false =>
    rw [if_neg (by rw [hmods]; exact Bool.false_ne_true)] at hout
    split at hout
    · next once u honce =>
      cases hout
      exact ⟨_, s, _, honce, .inl ⟨rfl, hmem⟩⟩
    · cases hoptional : mods.optional with
      | true =>
        rw [hoptional] at hout
        cases hout
        exact absurd hmem List.not_mem_nil
      | false =>
        rw [hoptional] at hout
        cases hout
    · cases hout

end Run

namespace Plan

variable {src : Source} {inner : Name → Run (Option (Option Value))} {patterns : Patterns}
  {dest : Nat → Destination}

/-- A value was read by one of the given leaves, the first of which fills the property at `q`, and
    in a round if the leaf repeats for what is around it here. -/
structure Traced (dest : Nat → Destination) (q : Nat) (outer : Bool) (fs : List Filler)
    (entry : Entry) : Prop where
  fair : entry.Fair
  leaf : ∃ k f, fs[k]? = some f ∧ entry.destination = dest (q + k) ∧
    (f.plural = true → outer = true ∨ entry.laps ≠ [])

theorem Traced.left {q : Nat} {outer : Bool} {fs fs' : List Filler} {entry : Entry}
    (h : Traced dest q outer fs entry) : Traced dest q outer (fs ++ fs') entry where
  fair := h.fair
  leaf := by
    obtain ⟨k, f, hk, hrest⟩ := h.leaf
    refine ⟨k, f, ?_, hrest⟩
    rw [List.getElem?_append_left (List.getElem?_eq_some_iff.1 hk).1, hk]

theorem Traced.right {q n : Nat} {outer : Bool} {fs fs' : List Filler} {entry : Entry}
    (h : Traced dest (q + n) outer fs' entry) (hn : fs.length = n) :
    Traced dest q outer (fs ++ fs') entry where
  fair := h.fair
  leaf := by
    obtain ⟨k, f, hk, hdest, hplural⟩ := h.leaf
    refine ⟨n + k, f, ?_, by rw [hdest, Nat.add_assoc], hplural⟩
    rw [List.getElem?_append_right (by omega), hn, Nat.add_sub_cancel_left, hk]

/-- What is read of something that is marked is traced, if what is read once is. Inside, what
    repeats counts as around. -/
theorem traced_marked {step : Run (Option (List Entry))} {limit q : Nat} {outer : Bool}
    {fs : List Filler} (hadvances : Run.Advances step) (mods : Modifiers)
    (h : Run.Yields step fun out => ∀ entry ∈ out, Traced dest q (outer || mods.plural) fs entry) :
    Run.Yields (marked limit mods step) fun out => ∀ entry ∈ out, Traced dest q outer fs entry := by
  intro s out t hout entry hmem
  obtain ⟨once, u, v, honce, ⟨hmods, hentry⟩ | ⟨hmods, lap, entry', hentry', rfl, hlap⟩⟩ :=
    hadvances.of_mem_marked hout hmem
  · have hentry := h u once v honce entry hentry
    rwa [hmods, Bool.or_false] at hentry
  · have hentry' := h u once v honce entry' hentry'
    obtain ⟨k, f, hk, hdest, _⟩ := hentry'.leaf
    refine ⟨hentry'.fair.within hlap, k, f, hk, hdest, fun _ => .inr ?_⟩
    exact List.append_ne_nil_of_right_ne_nil _ (List.cons_ne_nil _ _)

/-- A token yields a value for its leaf, if any. -/
theorem traced_token (symbol : Symbol) (slot : Option Name) (q : Nat) (outer plural : Bool) :
    Run.Yields ((symbol.token patterns).entries src inner
        (if slot.isSome then dest q else .nowhere))
      fun out => ∀ entry ∈ out, Traced dest q (outer || plural)
        (slot.toList.map fun name => { name, symbol, plural := outer || plural }) entry := by
  intro s out t hout entry hmem
  rw [Token.entries] at hout
  split at hout
  · next found u hfound =>
    cases found with
    | none => cases hout
    | some recorded =>
      cases hout
      obtain ⟨⟨d, v⟩, hrecorded, rfl⟩ := List.mem_map.1 hmem
      obtain ⟨hdest, hd⟩ := Token.destination_of_mem hfound hrecorded
      cases slot with
      | none => exact absurd hdest.symm hd
      | some name =>
        exact ⟨fun lap hlap => absurd hlap List.not_mem_nil, 0, _, rfl, hdest.symm, .inl⟩
  · cases hout

mutual

/-- What the instructions of a plan read is traced. -/
theorem traced_entries (hinner : ∀ target, Run.Advances (inner target)) :
    ∀ (p : Plan) (q : Nat) (outer : Bool),
      Run.Yields ((p.op patterns dest q).entries src inner)
        fun out => ∀ entry ∈ out, Traced dest q outer (p.fillers outer) entry
  | leaf mods symbol slot, q, outer => by
    rw [op, Op.entries, fillers]
    exact traced_marked ((Token.erases _ _).advances (Token.advances hinner _ _)) mods
      (traced_token symbol slot q outer mods.plural)
  | node mods choice parts, q, outer => by
    rw [op, fillers]
    cases choice with
    | true =>
      rw [if_pos rfl, Op.entries]
      exact traced_marked ((erases_any _).advances (advances_any hinner _)) mods
        (traced_any hinner parts q (outer || mods.plural))
    | false =>
      rw [if_neg Bool.false_ne_true, Op.entries]
      exact traced_marked ((erases_all _).advances (advances_all hinner _)) mods
        (traced_all hinner parts q (outer || mods.plural))

theorem traced_all (hinner : ∀ target, Run.Advances (inner target)) :
    ∀ (ps : List Plan) (q : Nat) (outer : Bool),
      Run.Yields (entriesAll src inner (opsOf patterns dest q ps))
        fun out => ∀ entry ∈ out, Traced dest q outer (fillersOf outer ps) entry
  | [], q, outer => by
    intro s out t hout entry hmem
    rw [opsOf, entriesAll] at hout
    cases hout
    exact absurd hmem List.not_mem_nil
  | p :: ps, q, outer => by
    intro s out t hout entry hmem
    rw [opsOf, entriesAll] at hout
    obtain ⟨first, u, hfirst, hnext⟩ := found_of_bind hout fun _ => rfl
    obtain ⟨more, v, hmore, hlast⟩ := found_of_bind hnext fun _ => rfl
    cases hlast
    rcases List.mem_append.1 hmem with hmem | hmem
    · exact (traced_entries hinner p q outer _ _ _ hfirst entry hmem).left
    · exact (traced_all hinner ps (q + p.width) outer _ _ _ hmore entry hmem).right
        (length_fillers outer p)

theorem traced_any (hinner : ∀ target, Run.Advances (inner target)) :
    ∀ (ps : List Plan) (q : Nat) (outer : Bool),
      Run.Yields (entriesAny src inner (opsOf patterns dest q ps))
        fun out => ∀ entry ∈ out, Traced dest q outer (fillersOf outer ps) entry
  | [], q, outer => by
    intro s out t hout entry hmem
    rw [opsOf, entriesAny] at hout
    cases hout
  | p :: ps, q, outer => by
    intro s out t hout entry hmem
    rw [opsOf, entriesAny] at hout
    obtain ⟨found, u, hfound, hnext⟩ := bind_eq_ok.1 hout
    cases found with
    | some first =>
      cases hnext
      exact (traced_entries hinner p q outer _ _ _ hfound entry hmem).left
    | none =>
      exact (traced_any hinner ps (q + p.width) outer _ _ _ hnext entry hmem).right
        (length_fillers outer p)

end

end Plan

/-! ## 4. Repetitions that stand still -/

namespace Op

/-- How often an instruction is followed. -/
def mods : Op → Modifiers
  | leaf mods _ _ => mods
  | all mods _ => mods
  | any mods _ => mods

/-- Follows an instruction once. -/
def once (src : Source) (entity : Name → Run (Option (Option Value))) :
    Op → Run (Option Assignments)
  | leaf _ token destination => token.run src entity destination
  | all _ ops => runAll src entity ops
  | any _ ops => runAny src entity ops

variable {src : Source} {inner : Name → Run (Option (Option Value))}

theorem run_eq_modified (op : Op) :
    op.run src inner = modified src.size op.mods (op.once src inner) := by
  cases op <;> rw [run] <;> rfl

theorem advances_once (hinner : ∀ target, Run.Advances (inner target)) (op : Op) :
    Run.Advances (op.once src inner) := by
  cases op with
  | leaf mods token destination => exact token.advances hinner destination
  | all mods ops => exact advances_all hinner ops
  | any mods ops => exact advances_any hinner ops

/-- A repetition that stands still has had no round, or a single one. -/
theorem eq_once_of_still (hinner : ∀ target, Run.Advances (inner target)) {op : Op}
    (hplural : op.mods.plural = true) {s t : RunState} {out : Assignments}
    (hrun : op.run src inner s = .ok (some out) t) (hstill : t.cursor.offset = s.cursor.offset) :
    (out = [] ∧ ∃ u, op.once src inner s = .ok none u) ∨
      op.once src inner s = .ok (some out) t := by
  have honce : Run.Advances (op.once src inner) := op.advances_once hinner
  rw [run_eq_modified, Run.modified_plural _ hplural] at hrun
  cases hfirst : op.once src inner s with
  | error f u => rw [Run.repeated_fault hfirst] at hrun; cases hrun
  | ok found u =>
    cases found with
    | none =>
      rw [Run.repeated_missed hfirst] at hrun
      cases hrun
      exact .inl ⟨rfl, u, rfl⟩
    | some first =>
      have hrest : Run.Advances (repeated src.size (op.once src inner)) :=
        .of_keeps fun o => (honce.keeps o).repeated (fun _ _ hs _ => hs) src.size
      by_cases hmoved : s.cursor.offset < u.cursor.offset ∧ u.cursor.offset ≤ src.size
      · rw [Run.repeated_moved hfirst hmoved] at hrun
        cases hmore : repeated src.size (op.once src inner) u with
        | error f v => rw [hmore] at hrun; cases hrun
        | ok more v =>
          rw [hmore] at hrun
          cases hrun
          have := hrest u more _ hmore
          omega
      · rw [Run.repeated_last hfirst hmoved] at hrun
        cases hrun
        exact .inr rfl

end Op

/-! ## 5. Lists in a result -/

/-- The leaves whose values go to a property that holds a list repeat, or something around them
    does. -/
theorem Site.Hosts.plural_of_dest {m : Model} {e : Entity} {s : Site} (h : s.Hosts m e)
    {place k : Nat} {key : Name} {id : PropertyId} {f : Plan.Filler}
    (hplace : e.properties[place]? = some (key, id)) (hplural : m.isPlural id = .ok true)
    (hk : (s.plan.fillers false)[k]? = some f) (hdest : s.dest (s.property + k) = .field place) :
    f.plural = true := by
  have hlt : k < s.plan.width := by
    rw [← Plan.length_fillers false]
    exact (List.getElem?_eq_some_iff.1 hk).1
  cases hproxy : s.proxy with
  | none =>
    obtain ⟨_, rfl⟩ := h.place_plain hproxy hplace
    rw [dest, hproxy] at hdest
    obtain rfl : k = place := by
      have := Destination.field.inj hdest
      omega
    rw [h.isPlural_slot hk] at hplural
    exact Except.ok.inj hplural
  | some entry =>
    -- what is around the proxy is around all the leaves that it stands for
    obtain ⟨choice, proxy⟩ := entry
    obtain ⟨rfl, rfl⟩ := h.place_proxy hproxy hplace
    obtain ⟨i, x, hfills⟩ := h.slot hk
    obtain ⟨line, hline, hany⟩ := hfills.line
    rw [(h.lineage_branch hproxy hlt hfills).2] at hline
    rw [Model.isPlural, Model.property_eq_ok_iff.2 (h.chooses choice id hproxy).property] at hplural
    cases hup : m.lineage choice with
    | error fault => rw [hup] at hline; contradiction
    | ok around =>
      rw [hup] at hline
      obtain rfl := Except.ok.inj hline
      have haround : around.any (·.2.isPlural) = true := by
        have hchoice : (m.lineage choice).map (List.any · (·.2.isPlural)) = .ok true := hplural
        rw [hup] at hchoice
        exact Except.ok.inj hchoice
      rw [← hany, List.any_cons, haround, Bool.or_true]

variable {g : Grammar} {engine : Engine} {m : Model} {config : ReadConfig} {p : Program}
  {patterns : Patterns}

/-- What is recorded for a property that holds a list was read in rounds. -/
theorem Procedure.Of.traced [Unicode.Xid] {proc : Procedure} {e : Entity} {s : Site} {r : Rule}
    {fields : List Field} (h : proc.Of g m patterns e s r fields) {src : Source}
    {inner : Name → Run (Option (Option Value))} (hinner : ∀ target, Run.Advances (inner target))
    {u t : RunState} {entries : List Entry}
    (hrun : (s.plan.op patterns s.dest s.property).entries src inner u = .ok (some entries) t)
    {place : Nat} {key : Name} {id : PropertyId}
    (hplace : e.properties[place]? = some (key, id)) (hplural : m.isPlural id = .ok true) :
    ∀ entry ∈ entriesAt place entries, entry.laps ≠ [] ∧ entry.Fair := by
  intro entry hmem
  obtain ⟨hmem, hdest⟩ := List.mem_filter.1 hmem
  have htraced := Plan.traced_entries hinner s.plan s.property false u entries t hrun entry hmem
  obtain ⟨k, f, hk, hleaf, hround⟩ := htraced.leaf
  have hf := h.hosts.plural_of_dest hplace hplural hk (hleaf.symm.trans (of_decide_eq_true hdest))
  exact ⟨(hround hf).resolve_left Bool.false_ne_true, htraced.fair⟩

/-- What a match records for an entity, its procedure has read. -/
theorem Program.Made.of_entries [Unicode.Xid] (hmade : p.Made engine m config patterns)
    (hreached : Build.Reached g m True) {site : Name → Site} (hsited : m.Sited site m.names)
    {src : Source} {below : Nat} {name : Name} {e : Entity} (he : m.entity? name = some e)
    {s t : RunState} {entries : List Entry}
    (hrun : p.entries src (below + 1) name s = .ok (some entries) t) :
    ∃ proc r fields u, Procedure.Of proc g m patterns e (site e.name) r fields ∧
      ((site e.name).plan.op patterns (site e.name).dest (site e.name).property).entries src
        (p.inner src below) u = .ok (some entries) t := by
  obtain ⟨proc, r, fields, hproc, hof⟩ := hmade.procedure_some hreached hsited he
  rw [Program.entries, hproc] at hrun
  simp only [hof.body] at hrun
  obtain ⟨_, _, _, hrun⟩ := bind_eq_ok.1 hrun
  obtain ⟨_, _, _, hrun⟩ := bind_eq_ok.1 hrun
  obtain ⟨op, u, hop, hrun⟩ := bind_eq_ok.1 hrun
  cases hop
  exact ⟨proc, r, fields, _, hof, hrun⟩

/-- The values of a list in a result, and what a repetition adds that stands still. Every instance
    that occurs in a result was read for its entity, and its match has recorded values in rounds. A
    list holds those that go to its property, in order. Each of them was read in one round or more
    of the entity's own repetitions, each of which moved the cursor or was the last of its
    repetition. A repetition that consumes nothing yields nothing if its body is not found there,
    and else what its body reads there once. -/
theorem values_of_rounds [Unicode.Xid] {n : Nat} (hmodel : Model.ofGrammar g = .ok m)
    (hprogram : Program.ofModel engine m config = .ok (p, n)) {text : String} {node : Node}
    (hread : p.read text = .ok (.ok node)) {x : Name} {fields : List (Name × Value)}
    (hinside : Value.Inside (.node x fields) node.toValue) :
    let src := p.source text
    (∃ e depth s t entries, m.entity? x = some e ∧
      p.entity src depth x s = .ok (some ⟨x, fields⟩) t ∧
      p.collect src depth x s = .ok (some (plains entries)) t ∧
      p.entries src depth x s = .ok (some entries) t ∧
      ∀ (place : Nat) key id, e.properties[place]? = some (key, id) → m.isPlural id = .ok true →
        Node.get? ⟨x, fields⟩ key = some (.list ((entriesAt place entries).map Entry.value)) ∧
        ∀ entry ∈ entriesAt place entries, entry.laps ≠ [] ∧
          ∀ lap ∈ entry.laps, lap.Moves ∨ lap.Idles) ∧
    ∀ (depth : Nat) (op : Op) s t out, op.mods.plural = true →
      op.run src (p.inner src depth) s = .ok (some out) t → t.cursor.offset = s.cursor.offset →
      (out = [] ∧ ∃ u, op.once src (p.inner src depth) s = .ok none u) ∨
        op.once src (p.inner src depth) s = .ok (some out) t := by
  intro src
  have hreached := (Build.reached_ofGrammar hmodel).1
  obtain ⟨patterns, hmade⟩ := Program.made_of_ofModel hprogram
  obtain ⟨site, hsited⟩ := hreached.bodies trivial
  have hinner : ∀ (depth : Nat) target, Run.Advances (p.inner src depth target) :=
    fun depth target => (Program.traceless_inner (Program.traceless_entity depth target)).advances
  obtain ⟨_, depth, s, t, hentity⟩ := hmade.instance_of_read hreached hread x fields hinside
  obtain ⟨below, e, proc, r, fs, u, out, rfl, he, hcollect, hof, hrun, hnode⟩ :=
    hmade.of_entity hreached hsited hentity
  obtain ⟨noted, hnoted, hplain⟩ := (p.erases _ _ _).exists_ok hcollect
  obtain ⟨entries, rfl, rfl⟩ := Option.map_eq_some_iff.1 hplain
  obtain ⟨proc', r', fs', u', hof', hentries⟩ := hmade.of_entries hreached hsited he hnoted
  refine ⟨⟨e, below + 1, s, t, entries, he, hentity, hcollect, hnoted, ?_⟩,
    fun depth op s t out hplural => Op.eq_once_of_still (hinner depth) hplural⟩
  intro place key id hplace hplural
  refine ⟨?_, hof'.traced (hinner below) hentries hplace hplural⟩
  rcases (hof.keeps hrun x).fields place key id hplace with ⟨_, hget⟩ | ⟨hsingle, _⟩
  · rw [hnode, hget, valuesAt_plains]
  · rw [hplural] at hsingle
    contradiction

namespace Hollow

/-- Lists of items, each of which may be empty. -/
def grammar : Grammar where
  rules := [
    { name := "list", body := .repetition (.reference none "item") },
    { name := "item", body := .optional (.literal none "a") }]

def list : Entity where
  name := "list"
  rule := grammar.rule? "list"
  properties := [("item", ⟨0⟩)]
  action := some ⟨0⟩

def item : Entity where
  name := "item"
  rule := grammar.rule? "item"
  properties := [("has_a", ⟨1⟩)]
  action := some ⟨1⟩

def model : Model where
  entities := [list, item]
  properties := #[
    { name := "item", entity := "list", source := ⟨0⟩ },
    { name := "has_a", entity := "item", source := ⟨1⟩ }]
  actions := #[
    { kind := .entity "item", isPlural := true, property := some ⟨0⟩ },
    { kind := .literal "a", isOptional := true, isWitness := true, property := some ⟨1⟩ }]
  root := some "list"

def program : Program where
  root := "list"
  ignore := none
  maxDepth := 256
  procedures := model.entities.map fun e => (e.name, Procedure.ofModel model [] e)

theorem walk_eq (events : Array Event) (attached : List (Name × PropertyId)) :
    Build.walk ["list", "item"] [] ["list"] { model, events, attached } =
      .ok () { model, events, attached } := by
  have hlist : Build.discover list { model, events, attached } =
      .ok ["item"] { model, events, attached } := by
    cbv
  have hitem : Build.discover item { model, events, attached } =
      .ok [] { model, events, attached } := by
    cbv
  rw [Build.walk_cons (by decide) rfl hlist, List.append_nil,
    Build.walk_cons (by decide) rfl hitem, List.nil_append, Build.walk]
  rfl

theorem ofGrammar_eq : Model.ofGrammar grammar = .ok model :=
  Build.ofGrammar_of_walk (m := model) (by cbv) rfl
    fun events attached => ⟨_, _, walk_eq events attached⟩

theorem ofModel_eq : Program.ofModel Sample.engine model Sample.config = .ok (program, 0) :=
  rfl

/-- An item, with whether there was a letter. -/
def itemOf (letter : Bool) : Value :=
  .node "item" [("has_a", .flag letter)]

/-- Two letters give three items. -/
def node : Node where
  entity := "list"
  fields := [("item", .list [itemOf true, itemOf true, itemOf false])]

theorem read_eq : program.read "aa" = .ok (.ok node) := by
  decide +kernel

theorem isPlural_eq : model.isPlural ⟨0⟩ = .ok true := by
  cbv

end Hollow

/-- Two letters are read as three items: each letter in a round that moved the cursor, and then one
    more item in a round that stood still. -/
theorem values_of_rounds_hollow :
    Model.ofGrammar Hollow.grammar = .ok Hollow.model ∧
    Program.ofModel Sample.engine Hollow.model Sample.config = .ok (Hollow.program, 0) ∧
    Hollow.program.read "aa" = .ok (.ok Hollow.node) ∧
    let src := Hollow.program.source "aa"
    (outcome (Hollow.program.entries src 257 "list" {})).map
        (Option.map (List.map Entry.laps)) =
      .ok (some [[⟨0, 1, 2⟩], [⟨1, 2, 1⟩], [⟨2, 2, 0⟩]]) ∧
    ∃ depth s t entries, Hollow.program.entity src depth "list" s = .ok (some Hollow.node) t ∧
      Hollow.program.entries src depth "list" s = .ok (some entries) t ∧
      (entriesAt 0 entries).map Entry.value =
        [Hollow.itemOf true, Hollow.itemOf true, Hollow.itemOf false] ∧
      ∀ entry ∈ entriesAt 0 entries, entry.laps ≠ [] ∧
        ∀ lap ∈ entry.laps, lap.Moves ∨ lap.Idles := by
  refine ⟨Hollow.ofGrammar_eq, Hollow.ofModel_eq, Hollow.read_eq, by decide +kernel, ?_⟩
  obtain ⟨⟨e, depth, s, t, entries, he, hentity, _, hentries, hlists⟩, _⟩ :=
    values_of_rounds Hollow.ofGrammar_eq Hollow.ofModel_eq Hollow.read_eq .self
  obtain rfl := Option.some.inj he
  obtain ⟨hget, hlaps⟩ := hlists 0 "item" ⟨0⟩ rfl Hollow.isPlural_eq
  exact ⟨depth, s, t, entries, hentity, hentries,
    (Value.list.inj (Option.some.inj hget)).symm, hlaps⟩

end Ebnf
