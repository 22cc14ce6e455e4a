import Mathlib.Data.List.Permutation
import Std
import Ebnf.Proofs.Recognition

/-!
# Programs read what the rules describe

A run of the program of a model finds something just where running the rules directly finds it, and
reaches as far. What a run collects on the way, and the failures and events it notes, have no
influence on that.

* `Run.Follows`: a step of a run finds what a recognizer tells of;
* `Run.repeated_induction`: repetitions that end well, by their rounds;
* `Run.Keeps`, `Op.keeps`: what holds of all states of a run;
* `Op.Carries`, `Op.carries`: what passes from reading tokens on to following instructions;
* `Plan.Stands.follows`: the instructions of a plan do;
* `Program.Made.follows_entity`: reading an entity does;
* `read_eq_accepts`: the same texts are read, up to the same offset.
-/

namespace Ebnf

variable {α β : Type} {r r' : Recognizer}

/-! ## 1. Steps that follow a recognizer -/

/-- Where a step ends that finds something. -/
def Run.reach : EStateM.Result Fault RunState (Option α) → Checked (Option Nat)
  | .ok (some _) t => .ok (some t.cursor.offset)
  | .ok none _ => .ok none
  | .error f _ => .error f

/-- A step of a run finds what a recognizer tells of, and ends where it tells. -/
def Run.Follows (step : Run (Option α)) (r : Recognizer) : Prop :=
  ∀ s, r s.cursor.offset = reach (step s)

/-- A step that fails leaves the cursor where it was. -/
def Run.Undoes (step : Run (Option α)) : Prop :=
  ∀ s t, step s = .ok none t → t.cursor.offset = s.cursor.offset

namespace Run

/-- Reading a token follows the scanner. -/
theorem follows_scan {scan : Scan (Option (List Char))} (h : Steady scan) :
    Follows (Run.scan scan) (.ofScan scan) := by
  intro s
  have hblind := h.blind s.cursor { offset := s.cursor.offset } rfl
  rw [Run.scan, Recognizer.ofScan]
  cases hs : scan s.cursor with
  | ok found c =>
    cases hs' : scan { offset := s.cursor.offset } with
    | ok found' c' =>
      rw [hs, hs'] at hblind
      obtain ⟨rfl, hoffset⟩ := hblind
      cases found with
      | none => rfl
      | some text => exact congrArg (fun o => Except.ok (some o)) hoffset.symm
    | error f c' => rw [hs, hs'] at hblind; exact hblind.elim
  | error f c =>
    cases hs' : scan { offset := s.cursor.offset } with
    | ok found' c' => rw [hs, hs'] at hblind; exact hblind.elim
    | error f' c' =>
      rw [hs, hs'] at hblind
      exact congrArg Except.error hblind.symm

/-- What is done with a result without moving the cursor makes no difference. -/
theorem Follows.andThen {step : Run (Option α)} (h : Follows step r)
    {next : Option α → Run (Option β)} (hnone : ∀ s, next none s = .ok none s)
    (hsome : ∀ a s, ∃ b t, next (some a) s = .ok (some b) t ∧
      t.cursor.offset = s.cursor.offset) : Follows (step >>= next) r := by
  intro s
  rw [h s, bind_apply]
  cases step s with
  | error f t => rfl
  | ok found t =>
    cases found with
    | none => simp only [hnone t, reach]
    | some a =>
      obtain ⟨b, u, hnext, hoffset⟩ := hsome a t
      simp only [hnext, reach, hoffset]

/-- What is done before without moving the cursor makes no difference. -/
theorem Follows.after {step : Run β} {a : RunState → β} {next : β → Run (Option α)}
    (hstep : ∀ s, ∃ t, step s = .ok (a s) t ∧ t.cursor.offset = s.cursor.offset)
    (h : ∀ s, Follows (next (a s)) r) : Follows (step >>= next) r := by
  intro s
  obtain ⟨t, hok, hoffset⟩ := hstep s
  rw [bind_of_ok hok, ← hoffset]
  exact h s t

/-- One step after another follows one recognizer after the other. -/
theorem Follows.both {step : Run (Option α)} (h : Follows step r)
    {next : Option α → Run (Option β)} (hnone : ∀ s, next none s = .ok none s)
    (hsome : ∀ a, Follows (next (some a)) r') : Follows (step >>= next) (r.both r') := by
  intro s
  unfold Recognizer.both
  rw [h s, bind_apply]
  cases step s with
  | error f t => rfl
  | ok found t =>
    cases found with
    | none => simp only [hnone t, reach]
    | some a => exact hsome a t

/-- A step to fall back on follows the second of two recognizers, if the first step is undone. -/
theorem Follows.either {step : Run (Option α)} (h : Follows step r) (hundo : Undoes step)
    {next : Option α → Run (Option β)} (hnone : Follows (next none) r')
    (hsome : ∀ a s, ∃ b, next (some a) s = .ok (some b) s) :
    Follows (step >>= next) (r.either r') := by
  intro s
  unfold Recognizer.either
  rw [h s, bind_apply]
  cases hstep : step s with
  | error f t => rfl
  | ok found t =>
    cases found with
    | none =>
      rw [← hundo s t hstep]
      exact hnone t
    | some a =>
      obtain ⟨b, hnext⟩ := hsome a t
      simp only [hnext, reach]

section

variable {limit : Nat} {step : Run (Option Assignments)} {s t : RunState} {f : Fault}
  {out : Assignments}

/-- A repetition ends in the fault that a round ends in. -/
theorem repeated_fault (h : step s = .error f t) : repeated limit step s = .error f t := by
  rw [repeated, h]

/-- A round that fails is undone, and ends a repetition. -/
theorem repeated_missed (h : step s = .ok none t) :
    repeated limit step s = .ok [] { t with cursor := t.cursor.moveTo s.cursor.offset } := by
  rw [repeated, h]

/-- A round that moves the cursor is followed by others. -/
theorem repeated_moved (h : step s = .ok (some out) t)
    (hmoved : s.cursor.offset < t.cursor.offset ∧ t.cursor.offset ≤ limit) :
    repeated limit step s = match repeated limit step t with
      | .ok more u => .ok (out ++ more) u
      | .error f u => .error f u := by
  rw [repeated, h]
  exact if_pos hmoved

/-- Any other round is the last one. -/
theorem repeated_last (h : step s = .ok (some out) t)
    (hstop : ¬ (s.cursor.offset < t.cursor.offset ∧ t.cursor.offset ≤ limit)) :
    repeated limit step s = .ok out t := by
  rw [repeated, h]
  exact if_neg hstop

/-- What holds of the last round of a repetition that ends well, and is kept by the rounds before
    it, holds of the repetition. -/
theorem repeated_induction {motive : RunState → Assignments → RunState → Prop}
    (missed : ∀ s t, step s = .ok none t →
      motive s [] { t with cursor := t.cursor.moveTo s.cursor.offset })
    (moved : ∀ s first t more u, step s = .ok (some first) t →
      s.cursor.offset < t.cursor.offset ∧ t.cursor.offset ≤ limit →
      repeated limit step t = .ok more u → motive t more u → motive s (first ++ more) u)
    (last : ∀ s out t, step s = .ok (some out) t →
      ¬ (s.cursor.offset < t.cursor.offset ∧ t.cursor.offset ≤ limit) → motive s out t)
    (s : RunState) : ∀ out t, repeated limit step s = .ok out t → motive s out t := by
  induction s using repeated.induct limit step with
  | case1 s f t hs =>
    intro out u hok
    rw [repeated_fault hs] at hok
    cases hok
  | case2 s t hs =>
    intro out u hok
    rw [repeated_missed hs] at hok
    cases hok
    exact missed s t hs
  | case3 s first t hs hmoved more u hmore ih =>
    intro out v hok
    rw [repeated_moved hs hmoved, hmore] at hok
    cases hok
    exact moved s first t more _ hs hmoved hmore (ih more _ hmore)
  | case4 s first t hs hmoved f u hmore ih =>
    intro out v hok
    rw [repeated_moved hs hmoved, hmore] at hok
    cases hok
  | case5 s out t hs hstop =>
    intro out u hok
    rw [repeated_last hs hstop] at hok
    cases hok
    exact last s _ _ hs hstop

end

/-- Repeating a step follows a repetition. -/
theorem follows_repeated (limit : Nat) {step : Run (Option Assignments)} (h : Follows step r)
    (s : RunState) :
    match repeated limit step s with
    | .ok _ t => r.iterate limit s.cursor.offset = .ok t.cursor.offset
    | .error f _ => r.iterate limit s.cursor.offset = .error f := by
  induction s using repeated.induct limit step with
  | case1 s f t hs =>
    have hr := h s
    rw [hs] at hr
    rw [repeated_fault hs]
    exact Recognizer.iterate_fault hr
  | case2 s t hs =>
    have hr := h s
    rw [hs] at hr
    rw [repeated_missed hs]
    exact Recognizer.iterate_missed hr
  | case3 s out t hs hmoved more u hmore ih =>
    have hr := h s
    rw [hs] at hr
    rw [hmore] at ih
    rw [repeated_moved hs hmoved, hmore]
    exact (Recognizer.iterate_moved hr hmoved).trans ih
  | case4 s out t hs hmoved f u hmore ih =>
    have hr := h s
    rw [hs] at hr
    rw [hmore] at ih
    rw [repeated_moved hs hmoved, hmore]
    exact (Recognizer.iterate_moved hr hmoved).trans ih
  | case5 s out t hs hstop =>
    have hr := h s
    rw [hs] at hr
    rw [repeated_last hs hstop]
    exact Recognizer.iterate_last hr hstop

/-- A step that repeats is done any number of times. -/
theorem modified_plural {limit : Nat} {mods : Modifiers} (step : Run (Option Assignments))
    (hmods : mods.plural = true) (s : RunState) : modified limit mods step s =
      match repeated limit step s with
      | .ok out t => .ok (some out) t
      | .error f t => .error f t := by
  unfold modified
  rw [if_pos hmods]
  show EStateM.map some (repeated limit step) s = _
  unfold EStateM.map
  cases repeated limit step s <;> rfl

/-- Any other step is done once, and undone where it fails. -/
theorem modified_single {limit : Nat} {mods : Modifiers} (step : Run (Option Assignments))
    (hmods : mods.plural = false) (s : RunState) : modified limit mods step s =
      match step s with
      | .ok (some out) t => .ok (some out) t
      | .ok none t => .ok (if mods.optional then some [] else none)
          { t with cursor := t.cursor.moveTo s.cursor.offset }
      | .error f t => .error f t := by
  unfold modified
  rw [if_neg (by rw [hmods]; exact Bool.false_ne_true)]
  show (step >>= _) s = _
  rw [bind_apply]
  cases step s with
  | error f t => rfl
  | ok found t => cases found <;> rfl

/-- A step that is marked is undone where it fails. -/
theorem undoes_modified (limit : Nat) (mods : Modifiers) (step : Run (Option Assignments)) :
    Undoes (modified limit mods step) := by
  intro s t h
  cases hmods : mods.plural with
  | true =>
    rw [modified_plural step hmods] at h
    split at h <;> cases h
  | false =>
    rw [modified_single step hmods] at h
    split at h
    · cases h
    · injection h with _ hstate
      rw [← hstate]
      rfl
    · cases h

/-- A step keeps what holds of the states of a run, and ends in no fault but of one kind. -/
def Keeps (holds : RunState → Prop) (may : Fault → Prop) (step : Run α) : Prop :=
  ∀ s, holds s →
    match step s with
    | .ok _ t => holds t
    | .error f _ => may f

namespace Keeps

variable {holds : RunState → Prop} {may : Fault → Prop} {step : Run α}

theorem pure (a : α) : Keeps holds may (Pure.pure a : Run α) :=
  fun _ hs => hs

theorem bind (h : Keeps holds may step) {next : α → Run β}
    (hnext : ∀ a, Keeps holds may (next a)) : Keeps holds may (step >>= next) := by
  intro s hs
  have hstep := h s hs
  rw [bind_apply]
  cases hrun : step s with
  | ok a t =>
    rw [hrun] at hstep
    exact hnext a t hstep
  | error f t =>
    rw [hrun] at hstep
    exact hstep

/-- What only goes on with something that was found. -/
theorem found {step : Run (Option α)} (h : Keeps holds may step)
    {next : Option α → Run (Option β)} (hnone : next none = Pure.pure none)
    (hsome : ∀ a, Keeps holds may (next (some a))) : Keeps holds may (step >>= next) := by
  refine h.bind fun a => ?_
  cases a with
  | none => rw [hnone]; exact .pure none
  | some a => exact hsome a

variable {step : Run (Option Assignments)}

/-- The cursor is put back only to where it has been. -/
theorem repeated (h : Keeps holds may step)
    (hback : ∀ s t, holds s → holds t →
      holds { t with cursor := t.cursor.moveTo s.cursor.offset }) (limit : Nat) :
    Keeps holds may (Ebnf.repeated limit step) := by
  intro s hs
  have hstep := h s hs
  induction s using repeated.induct limit step with
  | case1 s f t hrun =>
    rw [hrun] at hstep
    rw [repeated_fault hrun]
    exact hstep
  | case2 s t hrun =>
    rw [hrun] at hstep
    rw [repeated_missed hrun]
    exact hback s t hs hstep
  | case3 s out t hrun hmoved more u hmore ih =>
    rw [hrun] at hstep
    have hrounds := ih hstep (h t hstep)
    rw [hmore] at hrounds
    rw [repeated_moved hrun hmoved, hmore]
    exact hrounds
  | case4 s out t hrun hmoved f u hmore ih =>
    rw [hrun] at hstep
    have hrounds := ih hstep (h t hstep)
    rw [hmore] at hrounds
    rw [repeated_moved hrun hmoved, hmore]
    exact hrounds
  | case5 s out t hrun hstop =>
    rw [hrun] at hstep
    rw [repeated_last hrun hstop]
    exact hstep

theorem modified (h : Keeps holds may step)
    (hback : ∀ s t, holds s → holds t →
      holds { t with cursor := t.cursor.moveTo s.cursor.offset }) (limit : Nat)
    (mods : Modifiers) : Keeps holds may (Ebnf.modified limit mods step) := by
  intro s hs
  cases hmods : mods.plural with
  | true =>
    have hrounds := h.repeated hback limit s hs
    rw [modified_plural step hmods]
    cases hrun : Ebnf.repeated limit step s with
    | ok out t => rw [hrun] at hrounds; exact hrounds
    | error f t => rw [hrun] at hrounds; exact hrounds
  | false =>
    have hstep := h s hs
    rw [modified_single step hmods]
    cases hrun : step s with
    | ok out t =>
      rw [hrun] at hstep
      cases out with
      | none => exact hback s t hs hstep
      | some out => exact hstep
    | error f t => rw [hrun] at hstep; exact hstep

end Keeps

/-- Marking a step follows marking what it follows. -/
theorem Follows.modified {limit : Nat} {step : Run (Option Assignments)} (h : Follows step r)
    (mods : Modifiers) : Follows (Ebnf.modified limit mods step) (r.marked limit mods) := by
  intro s
  cases hmods : mods.plural with
  | true =>
    have hrepeated := follows_repeated limit h s
    rw [modified_plural step hmods, Recognizer.marked, if_pos hmods, Recognizer.many]
    cases hrun : repeated limit step s with
    | ok out t =>
      rw [hrun] at hrepeated
      rw [hrepeated]
      rfl
    | error f t =>
      rw [hrun] at hrepeated
      rw [hrepeated]
      rfl
  | false =>
    have honce : ¬ mods.plural = true := by
      rw [hmods]
      exact Bool.false_ne_true
    rw [modified_single step hmods, Recognizer.marked, if_neg honce]
    cases mods.optional with
    | true =>
      show r.maybe s.cursor.offset = _
      rw [Recognizer.maybe, h s]
      cases step s with
      | error f t => rfl
      | ok found t => cases found <;> rfl
    | false =>
      show r s.cursor.offset = _
      rw [h s]
      cases step s with
      | error f t => rfl
      | ok found t => cases found <;> rfl

end Run

/-! ## 2. Instructions -/

/-- Reads an entity that another one refers to. -/
def Program.inner (p : Program) (src : Source) (depth : Nat) :
    Name → Run (Option (Option Value)) :=
  fun target => do
    let some n ← p.entity src depth target | return none
    return some (← p.nodeValue n)

/-- What holds of two steps that read tokens on texts of the given sizes holds of two that follow
    instructions. -/
structure Op.Carries (size size' : Nat)
    (P : Run (Option Assignments) → Run (Option Assignments) → Prop) : Prop where
  found : P (pure (some [])) (pure (some []))
  missed : P (pure none) (pure none)
  both : ∀ {step step' next next'}, P step step' → P next next' →
    P (do
      let some out ← step | return none
      let some more ← next | return none
      return some (out ++ more)) (do
      let some out ← step' | return none
      let some more ← next' | return none
      return some (out ++ more))
  either : ∀ {step step' next next'}, P step step' → P next next' →
    P (do
      match ← step with
      | some out => return some out
      | none => next) (do
      match ← step' with
      | some out => return some out
      | none => next')
  modified : ∀ mods {step step'}, P step step' →
    P (modified size mods step) (modified size' mods step')

section

variable {src src' : Source} {inner inner' : Name → Run (Option (Option Value))}
  {P : Run (Option Assignments) → Run (Option Assignments) → Prop}

mutual

/-- What holds of reading every token holds of following every instruction. -/
theorem Op.carries (h : Op.Carries src.size src'.size P) (htoken : ∀ (token : Token) destination,
      P (token.run src inner destination) (token.run src' inner' destination)) :
    ∀ op : Op, P (op.run src inner) (op.run src' inner')
  | .leaf mods token destination => by
    rw [Op.run, Op.run]
    exact h.modified mods (htoken token destination)
  | .all mods ops => by
    rw [Op.run, Op.run]
    exact h.modified mods (carries_all h htoken ops)
  | .any mods ops => by
    rw [Op.run, Op.run]
    exact h.modified mods (carries_any h htoken ops)

theorem carries_all (h : Op.Carries src.size src'.size P) (htoken : ∀ (token : Token) destination,
      P (token.run src inner destination) (token.run src' inner' destination)) :
    ∀ ops : List Op, P (runAll src inner ops) (runAll src' inner' ops)
  | [] => by
    rw [runAll, runAll]
    exact h.found
  | op :: ops => by
    rw [runAll, runAll]
    exact h.both (op.carries h htoken) (carries_all h htoken ops)

theorem carries_any (h : Op.Carries src.size src'.size P) (htoken : ∀ (token : Token) destination,
      P (token.run src inner destination) (token.run src' inner' destination)) :
    ∀ ops : List Op, P (runAny src inner ops) (runAny src' inner' ops)
  | [] => by
    rw [runAny, runAny]
    exact h.missed
  | op :: ops => by
    rw [runAny, runAny]
    exact h.either (op.carries h htoken) (carries_any h htoken ops)

end

end

section

variable {src : Source} {engine : Engine} {rule : Name → Recognizer}
  {inner : Name → Run (Option (Option Value))}

/-- Reading a token follows what a leaf describes. -/
theorem Symbol.follows (hinner : ∀ target, Run.Follows (inner target) (rule target))
    {patterns : Patterns} {destination : Destination} (symbol : Symbol)
    (hpattern : ∀ source, symbol = .pattern source →
      patterns.lookup source = some (engine.find source)) :
    Run.Follows ((symbol.token patterns).run src inner destination)
      (symbol.recognize src engine.find rule) := by
  cases symbol with
  | literal text witness =>
    exact (Run.follows_scan (.literal src text)).andThen (fun _ => rfl)
      fun found s => ⟨_, s, rfl, rfl⟩
  | pattern source =>
    rw [Symbol.token, hpattern source rfl, Symbol.recognize]
    exact (Run.follows_scan (.pattern src (engine.find source) source)).andThen (fun _ => rfl)
      fun found s => ⟨_, s, rfl, rfl⟩
  | reference target =>
    exact (hinner target).andThen (fun _ => rfl) fun found s => ⟨_, s, rfl, rfl⟩

/-- An instruction that fails is undone. -/
theorem Op.undoes_run (op : Op) : Run.Undoes (op.run src inner) := by
  cases op with
  | leaf mods token destination => rw [Op.run]; exact Run.undoes_modified _ _ _
  | all mods ops => rw [Op.run]; exact Run.undoes_modified _ _ _
  | any mods ops => rw [Op.run]; exact Run.undoes_modified _ _ _

section

variable {holds : RunState → Prop} {may : Fault → Prop}

/-- Reading a token keeps what the scanner and the entities keep. -/
theorem Token.keeps (hliteral : ∀ text, Run.Keeps holds may (Run.scan (src.literal text)))
    (hpattern : ∀ find shown, Run.Keeps holds may (Run.scan (src.pattern find shown)))
    (hinner : ∀ target, Run.Keeps holds may (inner target)) (token : Token)
    (destination : Destination) : Run.Keeps holds may (token.run src inner destination) := by
  cases token with
  | literal text witness => exact (hliteral text).found rfl fun _ => .pure _
  | pattern shown find => exact (hpattern find shown).found rfl fun _ => .pure _
  | entity target => exact (hinner target).found rfl fun _ => .pure _

variable (htoken : ∀ token destination, Run.Keeps holds may (Token.run src inner destination token))
  (hback : ∀ s t, holds s → holds t →
    holds { t with cursor := t.cursor.moveTo s.cursor.offset })

include hback

/-- What reading tokens keeps passes on to following instructions. -/
theorem Run.Keeps.carries (size : Nat) :
    Op.Carries size size fun step _ => Run.Keeps holds may step where
  found := .pure _
  missed := .pure _
  both := fun h hnext => h.found rfl fun _ => hnext.found rfl fun _ => .pure _
  either := fun h hnext => h.bind fun found => by
    cases found with
    | none => exact hnext
    | some out => exact .pure _
  modified := fun mods _ _ h => h.modified hback size mods

include htoken

/-- Following an instruction keeps what reading a token keeps. -/
theorem Op.keeps (op : Op) : Run.Keeps holds may (op.run src inner) :=
  @Op.carries src src inner inner _ (Run.Keeps.carries hback src.size) htoken op

theorem keeps_all (ops : List Op) : Run.Keeps holds may (runAll src inner ops) :=
  @carries_all src src inner inner _ (Run.Keeps.carries hback src.size) htoken ops

theorem keeps_any (ops : List Op) : Run.Keeps holds may (runAny src inner ops) :=
  @carries_any src src inner inner _ (Run.Keeps.carries hback src.size) htoken ops

end

namespace Plan

variable {m : Model} {entity : Name} {link : ActionId → Option PropertyId} {patterns : Patterns}
  {dest : Nat → Destination}

/-- The patterns of a model have their matchers. -/
def Understood (m : Model) (patterns : Patterns) (engine : Engine) : Prop :=
  ∀ (i : Nat) x source, m.actions[i]? = some x → x.kind = .pattern source →
    patterns.lookup source = some (engine.find source)

mutual

/-- The instructions of a plan follow the plan. -/
theorem Stands.follows (hinner : ∀ target, Run.Follows (inner target) (rule target))
    (hpatterns : Understood m patterns engine) {a q : Nat} {parent : Option ActionId} :
    ∀ {p : Plan}, p.Stands m entity link a q parent →
      Run.Follows ((p.op patterns dest q).run src inner) (p.recognize src engine.find rule)
  | leaf mods symbol slot, ⟨htop, _⟩ => by
    rw [op, Op.run, recognize]
    refine Run.Follows.modified (symbol.follows hinner fun source hsource => ?_) mods
    exact hpatterns a _ source htop (by rw [hsource]; rfl)
  | node mods choice parts, ⟨hparts, _⟩ => by
    cases choice with
    | true => exact (hparts.follows_any hinner hpatterns).modified mods
    | false => exact (hparts.follows_all hinner hpatterns).modified mods

theorem StandInRow.follows_any (hinner : ∀ target, Run.Follows (inner target) (rule target))
    (hpatterns : Understood m patterns engine) {a q : Nat} {parent : Option ActionId} :
    ∀ {ps : List Plan}, StandInRow m entity link a q parent ps →
      Run.Follows (runAny src inner (opsOf patterns dest q ps))
        (.firstOf (recognizeEach src engine.find rule ps))
  | [], _ => by
    rw [opsOf, runAny]
    exact fun _ => rfl
  | p :: ps, ⟨hp, hps⟩ => by
    rw [opsOf, runAny]
    exact (hp.follows hinner hpatterns).either (Op.undoes_run _) (hps.follows_any hinner hpatterns)
      fun out s => ⟨out, rfl⟩

theorem StandInRow.follows_all (hinner : ∀ target, Run.Follows (inner target) (rule target))
    (hpatterns : Understood m patterns engine) {a q : Nat} {parent : Option ActionId} :
    ∀ {ps : List Plan}, StandInRow m entity link a q parent ps →
      Run.Follows (runAll src inner (opsOf patterns dest q ps))
        (.allOf (recognizeEach src engine.find rule ps))
  | [], _ => by
    rw [opsOf, runAll]
    exact fun _ => rfl
  | p :: ps, ⟨hp, hps⟩ => by
    rw [opsOf, runAll]
    refine (hp.follows hinner hpatterns).both (fun _ => rfl) fun out => ?_
    exact (hps.follows_all hinner hpatterns).andThen (fun _ => rfl) fun more s => ⟨_, s, rfl, rfl⟩

end

end Plan

/-! ## 3. Entities -/

variable {g : Grammar} {m : Model} {config : ReadConfig} {p : Program} {patterns : Patterns}

/-- How an entity of a built model is read. -/
structure Procedure.Of [Unicode.Xid] (proc : Procedure) (g : Grammar) (m : Model)
    (patterns : Patterns) (e : Entity) (s : Site) (r : Rule) (fields : List Field) : Prop where
  hosts : s.Hosts m e
  rule : g.rule? e.name = some r
  plan : s.plan = r.body.plan e.name .top
  body : proc.body = some (.ok (s.plan.op patterns s.dest s.property))
  fields_eq : proc.fields = .ok fields
  fields : List.Forall₂ (fun id f => Field.ofModel m id = .ok f) e.properties.ids fields
  isVirtual : proc.isVirtual = m.isVirtual e.name

/-- An entity of a built model is read as its rule says. -/
theorem Program.Made.procedure_some [Unicode.Xid] (hmade : p.Made engine m config patterns)
    (hreached : Build.Reached g m True) {site : Name → Site} (hsited : m.Sited site m.names)
    {name : Name} {e : Entity} (he : m.entity? name = some e) :
    ∃ proc r fields, p.procedure? name = some proc ∧
      proc.Of g m patterns e (site e.name) r fields := by
  have hmem := Model.mem_of_entity?_eq_some he
  have hosts := hsited.hosts_of_mem hmem
  obtain ⟨r, hr, hplan⟩ := hsited.plan_of_mem hmem
  obtain ⟨fields, hfields, hall⟩ := (hreached.orderly e hmem).fields_ok patterns
  refine ⟨Procedure.ofModel m patterns e, r, fields, ?_, hosts, ?_, hplan,
    hosts.body_eq hreached.rules.nodup hmem patterns, hfields, hall, rfl⟩
  · rw [hmade.procedure?_eq, he]
    rfl
  · rw [← hreached.rules.rule e hmem, hr]

/-- What a node stands for: the value of its first field if its entity is virtual, else itself. -/
theorem Program.Made.nodeValue_eq (hmade : p.Made engine m config patterns) {n : Node} {b : Bool}
    (hb : m.isVirtual n.entity = .ok b) (s : RunState) :
    p.nodeValue n s = .ok (if b then n.firstValue? else some n.toValue) s := by
  unfold Program.nodeValue
  rw [hmade.procedure?_eq]
  cases he : m.entity? n.entity with
  | none =>
    cases b with
    | false => rfl
    | true =>
      obtain ⟨e, hsome⟩ := Model.mem_names_iff.1 (Model.mem_names_of_isVirtual hb)
      rw [he] at hsome
      contradiction
  | some e =>
    have hvirtual : (Procedure.ofModel m patterns e).isVirtual = .ok b := by
      rw [← hb, ← Model.name_of_entity?_eq_some he]
      rfl
    simp only [Option.map_some, hvirtual]
    rfl

/-- Reading an entity follows running its rule. -/
theorem Program.Made.follows_entity [Unicode.Xid] (hmade : p.Made engine m config patterns)
    (hreached : Build.Reached g m True) (src : Source) (depth : Nat) :
    ∀ name, Run.Follows (p.entity src depth name) (g.recognize src engine.find depth name) := by
  induction depth with
  | zero =>
    intro name s
    rfl
  | succ depth ih =>
    intro name
    have hinner : ∀ target, Run.Follows (p.inner src depth target)
        (g.recognize src engine.find depth target) := by
      intro target
      refine (ih target).andThen (fun _ => rfl) fun n s => ?_
      obtain ⟨b, hb⟩ := hreached.isVirtual_ok n.entity
      have hv := hmade.nodeValue_eq hb s
      refine ⟨if b then n.firstValue? else some n.toValue, s, ?_, rfl⟩
      exact bind_of_ok hv
    rw [Grammar.recognize]
    unfold Program.entity
    cases he : m.entity? name with
    | none =>
      have hrule : g.rule? name = none := by
        cases hr : g.rule? name with
        | none => rfl
        | some r =>
          obtain ⟨e, hsome⟩ := Model.mem_names_iff.1 ((hreached.rules.names name).2 ⟨r, hr⟩)
          rw [he] at hsome
          contradiction
      rw [hmade.procedure?_eq, he, hrule]
      exact fun _ => rfl
    | some e =>
      obtain ⟨site, hsited⟩ := hreached.bodies trivial
      obtain ⟨proc, r, fields, hproc, hof⟩ := hmade.procedure_some hreached hsited he
      have hname := Model.name_of_entity?_eq_some he
      have hrule : g.rule? name = some r := hname ▸ hof.rule
      have hplan : (site e.name).plan.recognize src engine.find
          (g.recognize src engine.find depth) =
          r.body.recognize src engine.find (g.recognize src engine.find depth) := by
        rw [hof.plan]
        exact Expr.recognize_eq_plan (g.forward_recognize depth) e.name r.body .top
      simp only [hproc, hof.body, hof.fields_eq, hrule, ← hplan]
      refine Run.Follows.after (fun s => ⟨s, rfl, rfl⟩) fun _ =>
        Run.Follows.after (fun s => ⟨_, rfl, rfl⟩) fun _ =>
          Run.Follows.after (fun s => ⟨s, rfl, rfl⟩) fun _ => ?_
      exact (hof.hosts.stands.follows hinner hmade.patterns).andThen (fun _ => rfl)
        fun out s => ⟨_, s, rfl, rfl⟩

/-! ## 4. Whole texts -/

/-- What may be passed over is as configured. -/
theorem Program.Made.ignore_eq (h : p.Made engine m config patterns) :
    p.ignore = config.ignore.map engine.find := by
  have hignore := h.ignore
  cases hconfig : config.ignore with
  | none =>
    rw [hconfig] at hignore
    exact (Except.ok.inj hignore).symm
  | some pattern =>
    rw [hconfig] at hignore
    have hfound : (engine.anchoredOrError pattern).map some = .ok p.ignore := hignore
    rw [Engine.anchoredOrError] at hfound
    cases hfind : engine.anchored pattern with
    | error message =>
      rw [hfind] at hfound
      contradiction
    | ok find =>
      rw [hfind] at hfound
      rw [← Except.ok.inj hfound, Option.map_some, Engine.find, hfind]

/-- So a text is read under the configuration. -/
theorem Program.Made.source_eq (h : p.Made engine m config patterns) (text : String) :
    ({ text := text.toList, ignore := p.ignore } : Source) = config.source engine text := by
  rw [h.ignore_eq]
  rfl

/-- Why a text is not read that goes on after its root. -/
def Program.refusal (p : Program) (s : RunState) : ReadError :=
  if s.overflow.isSome ∨ s.cursor.offset < s.cursor.farthest then p.failure s
  else .trailingInput s.cursor.offset

/-- A run over a whole text is one over its root, and then tells whether something is left. -/
theorem Program.readSource_eq (p : Program) (src : Source) (s : RunState) :
    p.readSource src s =
      match p.entity src (p.maxDepth + 1) p.root s with
      | .error f t => .error f t
      | .ok none t => .ok (.error (p.failure t)) t
      | .ok (some n) t =>
        match src.atEnd t.cursor with
        | .error f c => .error f { t with cursor := c }
        | .ok true c => .ok (.ok n) { t with cursor := c }
        | .ok false c => .ok (.error (p.refusal { t with cursor := c }))
            { t with cursor := c, events := t.events.push (.textLeft c.offset) } := by
  rw [readSource, bind_apply]
  cases p.entity src (p.maxDepth + 1) p.root s with
  | error f t => rfl
  | ok found t =>
    cases found with
    | none => rfl
    | some n =>
      simp only [bind_apply, Run.scan]
      cases src.atEnd t.cursor with
      | error f c => rfl
      | ok atEnd c =>
        cases atEnd with
        | true => rfl
        | false =>
          have hrefused : ∀ u : RunState, (if t.overflow.isSome = true ∨ c.offset < c.farthest
              then pure (.error (p.failure { t with cursor := c }))
              else pure (.error (.trailingInput c.offset)) : Run (Except ReadError Node)) u =
                .ok (.error (p.refusal { t with cursor := c })) u := by
            intro u
            unfold refusal
            by_cases hhidden : t.overflow.isSome = true ∨ c.offset < c.farthest
            · rw [if_pos hhidden, if_pos hhidden]; rfl
            · rw [if_neg hhidden, if_neg hhidden]; rfl
          exact hrefused _

/-- A text is read as its root, and refused where the root is not found or something is left. -/
theorem Program.read_eq (p : Program) (text : String) :
    let src : Source := { text := text.toList, ignore := p.ignore }
    p.read text =
      match p.entity src (p.maxDepth + 1) p.root {} with
      | .error f _ => .error f
      | .ok none s => .ok (.error (p.failure s))
      | .ok (some n) s =>
        match src.atEnd s.cursor with
        | .error f _ => .error f
        | .ok true _ => .ok (.ok n)
        | .ok false c => .ok (.error (p.refusal { s with cursor := c })) := by
  intro src
  have hread : p.read text = outcome (p.readSource src {}) := by
    unfold Program.read Program.readTracing EStateM.run
    cases p.readSource src {} <;> rfl
  rw [hread, p.readSource_eq]
  cases p.entity src (p.maxDepth + 1) p.root {} with
  | error f s => rfl
  | ok found s =>
    cases found with
    | none => rfl
    | some n =>
      simp only
      cases src.atEnd s.cursor with
      | error f c => rfl
      | ok atEnd c => cases atEnd <;> rfl

/-- A text is read as a whole if its root is found and nothing is left then. -/
theorem Program.isOk_read (p : Program) (text : String) :
    let src : Source := { text := text.toList, ignore := p.ignore }
    (p.read text).map Except.isOk =
      match p.entity src (p.maxDepth + 1) p.root {} with
      | .ok none _ => .ok false
      | .ok (some _) s => outcome (src.atEnd s.cursor)
      | .error f _ => .error f := by
  intro src
  rw [p.read_eq]
  cases p.entity src (p.maxDepth + 1) p.root {} with
  | error f s => rfl
  | ok found s =>
    cases found with
    | none => rfl
    | some n =>
      simp only
      cases src.atEnd s.cursor with
      | error f c => rfl
      | ok atEnd c => cases atEnd <;> rfl

/-- The program of the model of a grammar reads what the rules of the grammar describe when they are
    run directly: the root is found where the first rule is, up to the same offset, and the same
    texts are read as a whole. -/
theorem read_eq_accepts [Unicode.Xid] {n : Nat} (hmodel : Model.ofGrammar g = .ok m)
    (hprogram : Program.ofModel engine m config = .ok (p, n)) (text : String) :
    let src := config.source engine text
    g.root?.map Rule.name = some p.root ∧
    Run.reach (p.entity src (config.maxDepth + 1) p.root {}) =
      g.recognize src engine.find (config.maxDepth + 1) p.root 0 ∧
    (p.read text).map Except.isOk = g.accepts engine config text := by
  intro src
  have hreached := (Build.reached_ofGrammar hmodel).1
  obtain ⟨patterns, hmade⟩ := Program.made_of_ofModel hprogram
  have hroot : g.root?.map Rule.name = some p.root := by
    rw [← hreached.rules.root, hmade.root]
  have hfollows := (hmade.follows_entity hreached src (config.maxDepth + 1) p.root {}).symm
  refine ⟨hroot, hfollows, ?_⟩
  obtain ⟨r, hr, hname⟩ := Option.map_eq_some_iff.1 hroot
  rw [p.isOk_read, Grammar.accepts, hr]
  simp only [hname]
  rw [← hfollows, hmade.source_eq, hmade.maxDepth]
  cases p.entity src (config.maxDepth + 1) p.root {} with
  | error f s => rfl
  | ok found s =>
    cases found with
    | none => rfl
    | some node => exact (Steady.atEnd src).outcome_eq rfl

end

/-! ## 5. An example -/

namespace Sample

/-- Lists of words and marks. A word is a mere text, and a mark has no properties. -/
def grammar : Grammar where
  rules := [
    { name := "list",
      body := .repetition (.choice (.reference none "word") (.reference none "mark")) },
    { name := "word", body := .literal none "a" },
    { name := "mark", body := .sequence (.literal none "c") (.literal none "d") }]

/-- The model of the lists. One property stands for both branches of the choice. -/
def model : Model where
  entities := [
    { name := "list", rule := grammar.rule? "list", properties := [("alternative", ⟨3⟩)],
      action := some ⟨2⟩ },
    { name := "word", rule := grammar.rule? "word", properties := [("word", ⟨2⟩)],
      action := some ⟨3⟩ },
    { name := "mark", rule := grammar.rule? "mark", action := some ⟨6⟩ }]
  properties := #[
    { name := "word", entity := "list", source := ⟨0⟩ },
    { name := "mark", entity := "list", source := ⟨1⟩ },
    { name := "word", entity := "word", source := ⟨3⟩ },
    { name := "alternative", entity := "list", source := ⟨2⟩, kind := .proxy [⟨0⟩, ⟨1⟩] }]
  actions := #[
    { kind := .entity "word", property := some ⟨0⟩, parent := some ⟨2⟩ },
    { kind := .entity "mark", property := some ⟨1⟩, parent := some ⟨2⟩ },
    { kind := .any [⟨0⟩, ⟨1⟩], isPlural := true, property := some ⟨3⟩ },
    { kind := .literal "a", property := some ⟨2⟩ },
    { kind := .literal "c", parent := some ⟨6⟩ },
    { kind := .literal "d", parent := some ⟨6⟩ },
    { kind := .all [⟨4⟩, ⟨5⟩] }]
  root := some "list"

/-- Understands every pattern, and finds nothing. -/
def engine : Engine where
  compile _ := .ok fun _ => none

/-- Nothing may be passed over. -/
def config : ReadConfig where
  ignore := none

/-- The program of the lists. -/
def program : Program where
  root := "list"
  ignore := none
  maxDepth := 256
  procedures := model.entities.map fun e => (e.name, Procedure.ofModel model [] e)

/-- The list leads to words and marks, which lead nowhere, and no link is made: the property of the
    list repeats. -/
theorem walk_eq (events : Array Event) (attached : List (Name × PropertyId)) :
    Build.walk ["list", "word", "mark"] [] ["list"] { model, events, attached } =
      .ok () { model, events, attached } := by
  have hlist : Build.discover model.entities[0] { model, events, attached } =
      .ok ["word", "mark"] { model, events, attached } := by cbv
  have hword : Build.discover model.entities[1] { model, events, attached } =
      .ok [] { model, events, attached } := by cbv
  have hmark : Build.discover model.entities[2] { model, events, attached } =
      .ok [] { model, events, attached } := by cbv
  rw [Build.walk_cons (by decide) rfl hlist, List.append_nil,
    Build.walk_cons (by decide) rfl hword, List.nil_append,
    Build.walk_cons (by decide) rfl hmark, List.nil_append, Build.walk]
  rfl

theorem ofGrammar_eq : Model.ofGrammar grammar = .ok model :=
  Build.ofGrammar_of_walk (m := model) (by cbv) rfl
    fun events attached => ⟨_, _, walk_eq events attached⟩

theorem ofModel_eq : Program.ofModel engine model config = .ok (program, 0) :=
  rfl

end Sample

/-- Three words and marks in a row are read as a list, up to the end of the text. -/
theorem read_eq_accepts_sample :
    Model.ofGrammar Sample.grammar = .ok Sample.model ∧
    Program.ofModel Sample.engine Sample.model Sample.config = .ok (Sample.program, 0) ∧
    Run.reach (Sample.program.entity (Sample.config.source Sample.engine "acda") 257 "list" {}) =
      .ok (some 4) ∧
    (Sample.program.read "acda").map Except.isOk = .ok true := by
  obtain ⟨_, hreach, hread⟩ := read_eq_accepts Sample.ofGrammar_eq Sample.ofModel_eq "acda"
  refine ⟨Sample.ofGrammar_eq, Sample.ofModel_eq, hreach.trans ?_, hread.trans ?_⟩
  · decide +kernel
  · decide +kernel

end Ebnf
