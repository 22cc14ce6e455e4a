import Mathlib
import Ebnf.Proofs.Ownership
import Ebnf.Proofs.Simulation

/-!
# What fails leaves no trace

Values are collected in one list that every step of a run adds to. A step that fails may have moved
the cursor and added values before; where it is tried, the cursor is put back and the list is cut to
the length it had. Nothing else ever takes a value away, so an instruction that fails has no effect
on either, and one that succeeds only adds values and never moves the cursor back.

* `Gather`, `Gather.attempt`, `Op.gather`: instructions that add to a list of values;
* `Op.mirrors`: they add what the instructions of a program yield;
* `Run.Advances`, `Op.advances`: nothing moves the cursor back;
* `Program.traceless_entity`: an entity that is not found leaves the cursor where it was;
* `leaves_no_trace`: so does every action of a model that was built, and the values are as before.
-/

namespace Ebnf

/-! ## 1. Collecting values -/

/-- A step that is given the values collected so far. It tells whether it succeeded, and yields the
    values that are collected then. -/
abbrev Gather := Assignments → Run (Bool × Assignments)

namespace Gather

/-- Tries a step. Where it fails, the cursor is put back, and the values are cut to as many as there
    were. -/
def attempt (step : Gather) : Gather := fun old => do
  let start ← Run.offset
  let (found, out) ← step old
  if found then return (true, out)
  Run.scan (Cursor.rewind start)
  return (false, out.take old.length)

/-- Tries a step until it fails or does not move the cursor. `limit` is the size of the text. -/
def loop (limit : Nat) (step : Gather) (old : Assignments) (s : RunState) :
    EStateM.Result Fault RunState (Bool × Assignments) :=
  match step.attempt old s with
  | .error f t => .error f t
  | .ok (false, out) t => .ok (true, out) t
  | .ok (true, out) t =>
    if s.cursor.offset < t.cursor.offset ∧ t.cursor.offset ≤ limit then loop limit step out t
    else .ok (true, out) t
termination_by limit - s.cursor.offset

/-- Tries a step as often as it is wanted. -/
def marked (limit : Nat) (mods : Modifiers) (step : Gather) : Gather := fun old =>
  if mods.plural then loop limit step old
  else do
    let (found, out) ← step.attempt old
    return (found || mods.optional, out)

/-- One step, and if it succeeds another one. -/
def both (step next : Gather) : Gather := fun old => do
  let (found, out) ← step old
  if found then next out else return (false, out)

/-- One step, and if it fails another one. -/
def either (step next : Gather) : Gather := fun old => do
  let (found, out) ← step old
  if found then return (true, out) else next out

end Gather

/-- Reads a token, and adds its value. -/
def Token.gather (src : Source) (entity : Name → Run (Option (Option Value)))
    (destination : Destination) (token : Token) : Gather := fun old => do
  match ← token.run src entity destination with
  | some out => return (true, old ++ out)
  | none => return (false, old)

mutual

/-- Follows an instruction, and adds the values. -/
def Op.gather (src : Source) (entity : Name → Run (Option (Option Value))) : Op → Gather
  | .leaf mods token destination => (token.gather src entity destination).marked src.size mods
  | .all mods ops => (gatherAll src entity ops).marked src.size mods
  | .any mods ops => (gatherAny src entity ops).marked src.size mods

/-- Follows every instruction in order. -/
def gatherAll (src : Source) (entity : Name → Run (Option (Option Value))) : List Op → Gather
  | [] => fun old => return (true, old)
  | op :: ops => (op.gather src entity).both (gatherAll src entity ops)

/-- Follows the first instruction that succeeds. -/
def gatherAny (src : Source) (entity : Name → Run (Option (Option Value))) : List Op → Gather
  | [] => fun old => return (false, old)
  | op :: ops => (op.gather src entity).either (gatherAny src entity ops)

end

/-! ## 2. What is collected is what a program yields -/

namespace Gather

variable {step next : Gather} {run run' : Run (Option Assignments)}

/-- A step does what another one does, and adds the values that it yields. Where it fails, it may
    have added something. -/
def Collects (step : Gather) (run : Run (Option Assignments)) : Prop :=
  ∀ old s, match run s with
    | .ok (some out) t => step old s = .ok (true, old ++ out) t
    | .ok none t => ∃ left, step old s = .ok (false, old ++ left) t
    | .error f t => step old s = .error f t

/-- A step does what another one does, and adds the values that it yields and no others. -/
def Mirrors (step : Gather) (run : Run (Option Assignments)) : Prop :=
  ∀ old s, step old s = match run s with
    | .ok (some out) t => .ok (true, old ++ out) t
    | .ok none t => .ok (false, old) t
    | .error f t => .error f t

theorem Mirrors.collects (h : Mirrors step run) : Collects step run := by
  intro old s
  have hstep := h old s
  cases hrun : run s with
  | error f t => rw [hrun] at hstep; exact hstep
  | ok found t =>
    rw [hrun] at hstep
    cases found with
    | none => exact ⟨[], by rw [hstep, List.append_nil]⟩
    | some out => exact hstep

/-- What a step that fails has added is dropped where it is tried. -/
theorem Collects.attempt_eq (h : Collects step run) (old : Assignments) (s : RunState) :
    step.attempt old s = match run s with
      | .ok (some out) t => .ok (true, old ++ out) t
      | .ok none t => .ok (false, old) { t with cursor := t.cursor.moveTo s.cursor.offset }
      | .error f t => .error f t := by
  have hstep := h old s
  show (step old >>= _) s = _
  rw [bind_apply]
  cases hrun : run s with
  | error f t =>
    rw [hrun] at hstep
    rw [hstep]
  | ok found t =>
    rw [hrun] at hstep
    cases found with
    | some out =>
      rw [hstep]
      rfl
    | none =>
      obtain ⟨left, hstep⟩ := hstep
      rw [hstep]
      exact congrArg (fun out => EStateM.Result.ok (false, out) _) List.take_left

/-- Trying a step until it fails adds what all rounds yield. -/
theorem Collects.loop_eq (h : Collects step run) (limit : Nat) (old : Assignments)
    (s : RunState) : loop limit step old s = match repeated limit run s with
      | .ok out t => .ok (true, old ++ out) t
      | .error f t => .error f t := by
  induction s using repeated.induct limit run generalizing old with
  | case1 s f t hs => rw [loop, repeated, h.attempt_eq, hs]
  | case2 s t hs =>
    rw [loop, repeated, h.attempt_eq, hs]
    simp only [List.append_nil]
  | case3 s out t hs hmoved more u hmore ih =>
    rw [loop, repeated, h.attempt_eq, hs]
    simp only [if_pos hmoved, hmore, ih]
    rw [List.append_assoc]
  | case4 s out t hs hmoved f u hmore ih =>
    rw [loop, repeated, h.attempt_eq, hs]
    simp only [if_pos hmoved, hmore, ih]
  | case5 s out t hs hmoved =>
    rw [loop, repeated, h.attempt_eq, hs]
    simp only [if_neg hmoved]

/-- A step that is tried as often as it is wanted adds only what is yielded. -/
theorem Collects.marked (h : Collects step run) (limit : Nat) (mods : Modifiers) :
    Mirrors (step.marked limit mods) (modified limit mods run) := by
  intro old s
  unfold Gather.marked
  cases hmods : mods.plural with
  | true =>
    rw [Run.modified_plural run hmods]
    show loop limit step old s = _
    rw [h.loop_eq]
    cases repeated limit run s <;> rfl
  | false =>
    rw [Run.modified_single run hmods]
    show (step.attempt old >>= _) s = _
    rw [bind_apply, h.attempt_eq]
    cases run s with
    | error f t => rfl
    | ok found t =>
      cases found with
      | some out => rfl
      | none =>
        cases mods.optional with
        | true =>
          exact congrArg (fun out => EStateM.Result.ok (true, out) _) (List.append_nil old).symm
        | false => rfl

/-- If a second step fails, what the first one has added stays until the whole is tried. -/
theorem Collects.both (h : Mirrors step run) (hnext : Collects next run') :
    Collects (step.both next) (do
      let some out ← run | return none
      let some more ← run' | return none
      return some (out ++ more)) := by
  intro old s
  have hboth : step.both next old s = match run s with
      | .ok (some out) t => next (old ++ out) t
      | .ok none t => .ok (false, old) t
      | .error f t => .error f t := by
    show (step old >>= _) s = _
    rw [bind_apply, h old s]
    cases run s with
    | error f t => rfl
    | ok found t => cases found <;> rfl
  rw [hboth, bind_apply]
  cases run s with
  | error f t => rfl
  | ok found t =>
    cases found with
    | none => exact ⟨[], by rw [List.append_nil]⟩
    | some out =>
      have hrest := hnext (old ++ out) t
      simp only [bind_apply]
      cases hrun : run' t with
      | error f u => rw [hrun] at hrest; exact hrest
      | ok more u =>
        rw [hrun] at hrest
        cases more with
        | none =>
          obtain ⟨left, hrest⟩ := hrest
          exact ⟨out ++ left, by rw [hrest, List.append_assoc]⟩
        | some more => exact hrest.trans (by rw [List.append_assoc])

theorem Collects.either (h : Mirrors step run) (hnext : Collects next run') :
    Collects (step.either next) (do
      match ← run with
      | some out => return some out
      | none => run') := by
  intro old s
  have heither : step.either next old s = match run s with
      | .ok (some out) t => .ok (true, old ++ out) t
      | .ok none t => next old t
      | .error f t => .error f t := by
    show (step old >>= _) s = _
    rw [bind_apply, h old s]
    cases run s with
    | error f t => rfl
    | ok found t => cases found <;> rfl
  rw [heither, bind_apply]
  cases run s with
  | error f t => rfl
  | ok found t =>
    cases found with
    | none => exact hnext old t
    | some out => rfl

end Gather

section

variable {src : Source} {inner : Name → Run (Option (Option Value))}

/-- Reading a token adds the value that it yields. -/
theorem Token.mirrors (token : Token) (destination : Destination) :
    (token.gather src inner destination).Mirrors (token.run src inner destination) := by
  intro old s
  rw [Token.gather, bind_apply]
  cases token.run src inner destination s with
  | error f t => rfl
  | ok found t => cases found <;> rfl

mutual

/-- Following an instruction adds the values that it yields and no others. -/
theorem Op.mirrors : ∀ op : Op, (op.gather src inner).Mirrors (op.run src inner)
  | .leaf mods token destination => by
    rw [Op.gather, Op.run]
    exact (token.mirrors destination).collects.marked src.size mods
  | .all mods ops => by
    rw [Op.gather, Op.run]
    exact (collects_all ops).marked src.size mods
  | .any mods ops => by
    rw [Op.gather, Op.run]
    exact (collects_any ops).marked src.size mods

theorem collects_all : ∀ ops : List Op, (gatherAll src inner ops).Collects (runAll src inner ops)
  | [] => by
    rw [gatherAll, runAll]
    exact fun old s =>
      congrArg (fun out => EStateM.Result.ok (true, out) s) (List.append_nil old).symm
  | op :: ops => by
    rw [gatherAll, runAll]
    exact .both op.mirrors (collects_all ops)

theorem collects_any : ∀ ops : List Op, (gatherAny src inner ops).Collects (runAny src inner ops)
  | [] => by
    rw [gatherAny, runAny]
    exact fun old s => ⟨[], by rw [List.append_nil]; rfl⟩
  | op :: ops => by
    rw [gatherAny, runAny]
    exact .either op.mirrors (collects_any ops)

end

end

/-! ## 3. Nothing moves the cursor back -/

namespace Run

variable {α β : Type}

/-- A step that leaves the cursor where it was. -/
def Still (step : Run α) : Prop :=
  ∀ s a t, step s = .ok a t → t.cursor.offset = s.cursor.offset

/-- A step that cannot fail and leaves the cursor where it was. -/
def Sure (step : Run (Option α)) : Prop :=
  ∀ s found t, step s = .ok found t → found ≠ none ∧ t.cursor.offset = s.cursor.offset

/-- A step that leaves the cursor where it was or moves it on. -/
def Advances (step : Run α) : Prop :=
  ∀ s a t, step s = .ok a t → s.cursor.offset ≤ t.cursor.offset

namespace Still

theorem pure (a : α) : Still (Pure.pure a : Run α) := by
  intro s b t h
  cases h
  rfl

theorem check (x : Checked α) : Still (Run.check x) := by
  cases x with
  | ok a => exact .pure a
  | error f => exact fun s a t h => by contradiction

theorem tell (e : Event) : Still (Run.tell e) := by
  intro s a t h
  cases h
  rfl

theorem offset : Still Run.offset := by
  intro s a t h
  cases h
  rfl

theorem bind {step : Run α} (h : Still step) {next : α → Run β} (hnext : ∀ a, Still (next a)) :
    Still (step >>= next) := by
  intro s b u hok
  obtain ⟨a, t, hs, hrest⟩ := bind_eq_ok.1 hok
  exact (hnext a t b u hrest).trans (h s a t hs)

/-- What is made of the result of a step is found. -/
theorem sure {step : Run α} (h : Still step) (make : α → β) :
    Sure (step >>= fun a => Pure.pure (some (make a))) := by
  intro s found u hok
  obtain ⟨a, t, hs, hmade⟩ := bind_eq_ok.1 hok
  cases hmade
  exact ⟨Option.some_ne_none _, h s a u hs⟩

end Still

namespace Advances

variable {step : Run α}

/-- A cursor that is behind an offset stays behind it. -/
theorem keeps (h : Advances step) (o : Nat) :
    Keeps (fun s => o ≤ s.cursor.offset) (fun _ => True) step := by
  intro s hs
  cases hstep : step s with
  | ok a t => exact Nat.le_trans hs (h s a t hstep)
  | error f t => trivial

theorem of_keeps (h : ∀ o, Keeps (fun s => o ≤ s.cursor.offset) (fun _ => True) step) :
    Advances step := by
  intro s a t hstep
  have hs := h s.cursor.offset s (Nat.le_refl _)
  rwa [hstep] at hs

theorem scan {scan : Scan α} (h : Steady scan) : Advances (Run.scan scan) := by
  intro s a t hok
  rw [Run.scan] at hok
  split at hok
  · next b c hs =>
    cases hok
    exact h.forward s.cursor _ c hs
  · contradiction

theorem bind (h : Advances step) {next : α → Run β} (hnext : ∀ a, Advances (next a)) :
    Advances (step >>= next) :=
  .of_keeps fun o => (h.keeps o).bind fun a => (hnext a).keeps o

/-- What only goes on with something that was found. -/
theorem found {step : Run (Option α)} (h : Advances step) {next : Option α → Run (Option β)}
    (hnone : next none = Pure.pure none) (hsome : ∀ a, Advances (next (some a))) :
    Advances (step >>= next) :=
  .of_keeps fun o => (h.keeps o).found hnone fun a => (hsome a).keeps o

end Advances

theorem Still.advances {step : Run α} (h : Still step) : Advances step :=
  fun s a t hs => Nat.le_of_eq (h s a t hs).symm

/-- A step that leaves the cursor where it was if it fails, and never moves it back. -/
structure Traceless (step : Run (Option α)) : Prop where
  undoes : Undoes step
  advances : Advances step

namespace Traceless

theorem of_still {step : Run (Option α)} (h : Still step) : Traceless step where
  undoes := fun s t hs => h s none t hs
  advances := h.advances

/-- What is done before may leave events, but must not move the cursor. -/
theorem after {step : Run β} (h : Still step) {next : β → Run (Option α)}
    (hnext : ∀ b, Traceless (next b)) : Traceless (step >>= next) where
  undoes := by
    intro s u hok
    obtain ⟨b, t, hs, hrest⟩ := bind_eq_ok.1 hok
    exact ((hnext b).undoes t u hrest).trans (h s b t hs)
  advances := h.advances.bind fun b => (hnext b).advances

/-- What is done with something that was found must not move the cursor, and cannot fail any
    more. -/
theorem andThen {step : Run (Option α)} (h : Traceless step)
    {next : Option α → Run (Option β)} (hnone : next none = Pure.pure none)
    (hsome : ∀ a, Sure (next (some a))) : Traceless (step >>= next) where
  undoes := by
    intro s u hok
    obtain ⟨found, t, hs, hrest⟩ := bind_eq_ok.1 hok
    cases found with
    | none =>
      rw [hnone] at hrest
      cases hrest
      exact h.undoes s u hs
    | some a => exact absurd rfl (hsome a t none u hrest).1
  advances := h.advances.found hnone fun a =>
    Still.advances fun s found t hs => (hsome a s found t hs).2

end Traceless

end Run

section

variable {src : Source} {inner : Name → Run (Option (Option Value))}

/-- Reading a token does not move the cursor back, even where it is not found. -/
theorem Token.advances (hinner : ∀ target, Run.Advances (inner target)) (token : Token)
    (destination : Destination) : Run.Advances (token.run src inner destination) :=
  .of_keeps fun o => token.keeps (fun text => (Run.Advances.scan (.literal src text)).keeps o)
    (fun find shown => (Run.Advances.scan (.pattern src find shown)).keeps o)
    (fun target => (hinner target).keeps o) destination

/-- Following an instruction does not move the cursor back. -/
theorem Op.advances (hinner : ∀ target, Run.Advances (inner target)) (op : Op) :
    Run.Advances (op.run src inner) :=
  .of_keeps fun o => op.keeps
    (fun token destination => (token.advances hinner destination).keeps o) fun _ _ hs _ => hs

theorem advances_all (hinner : ∀ target, Run.Advances (inner target)) (ops : List Op) :
    Run.Advances (runAll src inner ops) :=
  .of_keeps fun o => keeps_all
    (fun token destination => (token.advances hinner destination).keeps o) (fun _ _ hs _ => hs) ops

theorem advances_any (hinner : ∀ target, Run.Advances (inner target)) (ops : List Op) :
    Run.Advances (runAny src inner ops) :=
  .of_keeps fun o => keeps_any
    (fun token destination => (token.advances hinner destination).keeps o) (fun _ _ hs _ => hs) ops

end

/-! ## 4. Entities -/

namespace Program

variable {p : Program} {src : Source}

/-- Asking what a node stands for does not move the cursor. -/
theorem still_nodeValue (n : Node) : Run.Still (p.nodeValue n) := by
  unfold nodeValue
  cases p.procedure? n.entity with
  | none => exact (Run.Still.pure false).bind fun _ => .pure _
  | some procedure => exact (Run.Still.check _).bind fun _ => .pure _

/-- Reading an entity that another one refers to leaves as little behind as reading the entity. -/
theorem traceless_inner {depth : Nat} {target : Name}
    (h : Run.Traceless (p.entity src depth target)) : Run.Traceless (p.inner src depth target) :=
  h.andThen rfl fun n => (still_nodeValue n).sure id

/-- Reading an entity leaves the cursor where it was if the entity is not found, and never moves it
    back. -/
theorem traceless_entity (depth : Nat) : ∀ name, Run.Traceless (p.entity src depth name) := by
  induction depth with
  | zero =>
    intro name
    refine .of_still fun s found t h => ?_
    cases h
    rfl
  | succ depth ih =>
    intro name
    unfold entity
    cases p.procedure? name with
    | none => exact .of_still (.pure none)
    | some procedure =>
      obtain ⟨body, fields, _⟩ := procedure
      cases body with
      | none => exact .of_still (.pure none)
      | some body =>
        refine .after .offset fun o => .after (.tell _) fun _ => .after (.check body) fun op => ?_
        have hop : Run.Traceless (op.run src (p.inner src depth)) :=
          ⟨op.undoes_run, op.advances fun target => (traceless_inner (ih target)).advances⟩
        exact hop.andThen rfl fun out => (Run.Still.check fields).sure (assemble name · out)

end Program

/-! ## 5. Actions -/

/-- A step leaves no trace where it fails: the cursor is where it was, and the values are the same.
    Where it succeeds, it has only added values and not moved the cursor back. -/
def Gather.Traceless (step : Gather) : Prop :=
  ∀ old s, match step old s with
    | .ok (false, out) t => t.cursor.offset = s.cursor.offset ∧ out = old
    | .ok (true, out) t => s.cursor.offset ≤ t.cursor.offset ∧ old <+: out
    | .error _ _ => True

theorem Gather.Mirrors.traceless {step : Gather} {run : Run (Option Assignments)}
    (h : step.Mirrors run) (hrun : Run.Traceless run) : step.Traceless := by
  intro old s
  rw [h old s]
  cases hs : run s with
  | error f t => trivial
  | ok found t =>
    cases found with
    | none => exact ⟨hrun.undoes s t hs, rfl⟩
    | some out => exact ⟨hrun.advances s _ t hs, List.prefix_append old out⟩

/-- Whatever is read with the program of a model that was built, from wherever it stands and however
    deep: every action has instructions, wherever the values go, and these collect what the program
    yields. If they fail, the cursor and the values collected are as before; if they succeed, values
    were only added, and the cursor did not move back. An entity that is not found leaves the cursor
    where it was. Only a fault is excepted, such as one where a text is too long for its offsets. -/
theorem leaves_no_trace [Unicode.Xid] {g : Grammar} {engine : Engine} {m : Model}
    {config : ReadConfig} {p : Program} {n : Nat} (hmodel : Model.ofGrammar g = .ok m)
    (hprogram : Program.ofModel engine m config = .ok (p, n)) (text : String) (depth : Nat) :
    let src := config.source engine text
    let inner := p.inner src depth
    (∃ patterns, p.Made engine m config patterns ∧
      ∀ i < m.actions.size, ∀ ids, ∃ op, m.op patterns ids ⟨i⟩ = .ok op ∧
        (op.gather src inner).Mirrors (op.run src inner) ∧ (op.gather src inner).Traceless) ∧
    ∀ name, Run.Traceless (p.entity src depth name) := by
  intro src inner
  have hentity : ∀ name, Run.Traceless (p.entity src depth name) := Program.traceless_entity depth
  obtain ⟨patterns, hmade⟩ := Program.made_of_ofModel hprogram
  obtain ⟨hnodup, site, hsited, hfilled⟩ := Build.exists_filled hmodel
  refine ⟨⟨patterns, hmade, fun i hi ids => ?_⟩, hentity⟩
  obtain ⟨name, hname, hwithin⟩ := hfilled.actions i hi
  obtain ⟨e, he, rfl⟩ := List.mem_map.1 hname
  obtain ⟨op, hop⟩ := (hsited.hosts_of_mem he).exists_op hnodup he patterns ids hwithin
  have hinner : ∀ target, Run.Traceless (inner target) := fun target =>
    Program.traceless_inner (hentity target)
  have hrun : Run.Traceless (op.run src inner) :=
    ⟨op.undoes_run, op.advances fun target => (hinner target).advances⟩
  exact ⟨op, hop, op.mirrors, op.mirrors.traceless hrun⟩

namespace Halves

/-- Two texts in a row. -/
def grammar : Grammar where
  rules := [
    { name := "pair",
      body := .sequence (.literal (some "left") "a") (.literal (some "right") "b") }]

def pair : Entity where
  name := "pair"
  rule := grammar.rule? "pair"
  properties := [("left", ⟨0⟩), ("right", ⟨1⟩)]
  action := some ⟨2⟩

def model : Model where
  entities := [pair]
  properties := #[
    { name := "left", entity := "pair", source := ⟨0⟩ },
    { name := "right", entity := "pair", source := ⟨1⟩ }]
  actions := #[
    { kind := .literal "a", property := some ⟨0⟩, parent := some ⟨2⟩ },
    { kind := .literal "b", property := some ⟨1⟩, parent := some ⟨2⟩ },
    { kind := .all [⟨0⟩, ⟨1⟩] }]
  root := some "pair"

def program : Program where
  root := "pair"
  ignore := none
  maxDepth := 256
  procedures := model.entities.map fun e => (e.name, Procedure.ofModel model [] e)

theorem walk_eq (events : Array Event) (attached : List (Name × PropertyId)) :
    Build.walk ["pair"] [] ["pair"] { model, events, attached } =
      .ok () { model, events, attached } := by
  have hpair : Build.discover pair { model, events, attached } =
      .ok [] { model, events, attached } := by
    cbv
  rw [Build.walk_cons (by decide) rfl hpair, List.nil_append, Build.walk]
  rfl

theorem ofGrammar_eq : Model.ofGrammar grammar = .ok model :=
  Build.ofGrammar_of_walk (m := model) (by cbv) rfl
    fun events attached => ⟨_, _, walk_eq events attached⟩

theorem ofModel_eq : Program.ofModel Sample.engine model Sample.config = .ok (program, 0) :=
  rfl

/-- The instructions for both texts. -/
def both : Op :=
  .all ⟨false, false⟩ [.leaf ⟨false, false⟩ (.literal "a" false) (.field 0),
    .leaf ⟨false, false⟩ (.literal "b" false) (.field 1)]

theorem op_eq (patterns : Patterns) : model.op patterns [⟨0⟩, ⟨1⟩] ⟨2⟩ = .ok both := by
  cbv

/-- Where only the first text is there, the second one is noted as expected behind it. -/
theorem run_eq (inner : Name → Run (Option (Option Value))) :
    both.run (Sample.config.source Sample.engine "ac") inner {} =
      .ok none { cursor := { farthest := 1, expected := ["\"b\""] } } :=
  rfl

end Halves

/-- The first of two texts is read and its value added, but the second one is missing: neither has
    an effect on the cursor or on the values. -/
theorem leaves_no_trace_halves :
    Model.ofGrammar Halves.grammar = .ok Halves.model ∧
    Program.ofModel Sample.engine Halves.model Sample.config = .ok (Halves.program, 0) ∧
    let src := Sample.config.source Sample.engine "ac"
    ∃ op, Halves.model.op [] [⟨0⟩, ⟨1⟩] ⟨2⟩ = .ok op ∧ ∀ old, ∃ t,
      op.gather src (Halves.program.inner src 0) old {} = .ok (false, old) t ∧
        t.cursor.offset = 0 ∧ t.cursor.farthest = 1 := by
  obtain ⟨⟨patterns, _, hactions⟩, _⟩ :=
    leaves_no_trace Halves.ofGrammar_eq Halves.ofModel_eq "ac" 0
  obtain ⟨op, hop, hmirrors, _⟩ := hactions 2 (by decide) [⟨0⟩, ⟨1⟩]
  obtain rfl := Except.ok.inj ((Halves.op_eq patterns).symm.trans hop)
  refine ⟨Halves.ofGrammar_eq, Halves.ofModel_eq, Halves.both, Halves.op_eq [], fun old => ?_⟩
  have hgather := hmirrors old {}
  rw [Halves.run_eq] at hgather
  exact ⟨_, hgather, rfl, rfl⟩

end Ebnf
