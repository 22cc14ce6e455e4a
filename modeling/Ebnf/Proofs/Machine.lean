import Ebnf.Proofs.Faults
import Ebnf.Proofs.Rounds
import Mathlib.Logic.Relation

/-!
# Reading step by step

Reading a text as a machine does it, one step after another, with a stack of what has been left to
do. The machine knows nothing of where it will end: a call counts how deep it is, a repetition goes
on until a round fails or leaves the cursor where it was, and nothing else holds it back.

* `Machine`, `Machine.step`: the machine and what it does next;
* `Stacked`: what holds of the stack, whatever has been done before;
* `Machine.Sound.step`, `Machine.Reaches.sound`: each step keeps it, so every run does;
* `Machine.Sound.calls_le`, `Machine.Sound.count_le`: how many calls are nested, and how many rounds
  a repetition has had.
-/

namespace Ebnf

/-! ## 1. The machine -/

/-- What has been left to do until something else is done. -/
inductive Frame where
  /-- To see whether anything is left of the text. -/
  | text
  /-- To put together a node of the entity. -/
  | call (entity : Name) (fields : Checked (List Field))
  /-- To send the value of an entity to its place. -/
  | reference (destination : Destination)
  /-- To undo an instruction that fails, and to do without it if it is optional. -/
  | single (optional : Bool) (start : Nat)
  /-- To go on with a repetition that was begun at `origin`. The round at hand is number `count` and
      was begun at `start`; `out` is what was read before. -/
  | round (depth : Nat) (op : Op) (origin start count : Nat) (out : Assignments)
  /-- To follow the other instructions of a sequence, after what was read before. -/
  | all (depth : Nat) (ops : List Op) (out : Assignments)
  /-- To follow the other instructions of a choice if the one at hand fails. -/
  | any (depth : Nat) (ops : List Op)

/-- What is to be done next. -/
inductive Control where
  /-- To read an entity. So many are being read around it. -/
  | call (depth : Nat) (name : Name)
  /-- To follow an instruction as often as it is wanted, in an entity at the given depth. -/
  | follow (depth : Nat) (op : Op)
  /-- To follow an instruction once. -/
  | attempt (depth : Nat) (op : Op)
  /-- To go on with what an instruction yielded. -/
  | gave (found : Option Assignments)
  /-- To go on with what an entity was read as. -/
  | took (node : Option Node)
  /-- Nothing: the text was read or refused. -/
  | done (result : Except ReadError Node)
  /-- Nothing: there was a fault. -/
  | fault (f : Fault)

/-- A machine that reads a text. -/
structure Machine where
  /-- What is to be done next. -/
  control : Control
  /-- What has been left to do, the latest first. -/
  frames : List Frame
  /-- Where the run stands. -/
  state : RunState

/-- The result of the root, once it was looked for. -/
def Program.conclude (p : Program) (src : Source) (found : Option Node) :
    Run (Except ReadError Node) := do
  let some n := found | return .error (p.failure (← get))
  if ← Run.scan src.atEnd then return .ok n
  let s ← get
  Run.tell (.textLeft s.cursor.offset)
  if s.overflow.isSome ∨ s.cursor.offset < s.cursor.farthest then return .error (p.failure s)
  return .error (.trailingInput s.cursor.offset)

namespace Machine

variable {α β : Type}

/-- The machine after a step that does not take it anywhere else. A fault clears the stack. -/
def after (frames : List Frame) (answer : α → Control) :
    EStateM.Result Fault RunState α → Machine
  | .ok a s => ⟨answer a, frames, s⟩
  | .error f s => ⟨.fault f, [], s⟩

/-- Puts the cursor back. -/
def back (start : Nat) (s : RunState) : RunState :=
  { s with cursor := s.cursor.moveTo start }

/-- Starts to read an entity, unless it lies too deep. -/
def enter (p : Program) (depth : Nat) (name : Name) (frames : List Frame) (s : RunState) :
    Machine :=
  if p.maxDepth < depth then
    ⟨.took none, frames, { s with
      overflow := s.overflow.or (some name), events := s.events.push (.tooDeep name) }⟩
  else match p.procedure? name with
    | none => ⟨.took none, frames, s⟩
    | some procedure => match procedure.body with
      | none => ⟨.took none, frames, s⟩
      | some body =>
        after (.call name procedure.fields :: frames) (.follow depth)
          (Run.check body { s with events := s.events.push (.entityTried name s.cursor.offset) })

/-- Starts to read a token. A text is read in one go. -/
def begin (src : Source) (depth : Nat) (destination : Destination) (frames : List Frame)
    (s : RunState) : Token → Machine
  | .literal text witness =>
    after frames .gave ((Token.literal text witness).run src (fun _ => pure none) destination s)
  | .pattern shown find =>
    after frames .gave ((Token.pattern shown find).run src (fun _ => pure none) destination s)
  | .entity target => ⟨.call (depth + 1) target, .reference destination :: frames, s⟩

/-- Goes on with what an instruction yielded. -/
def resume (frames : List Frame) (s : RunState) : Option Assignments → Frame → Option Machine
  | none, .single optional start =>
    some ⟨.gave (if optional then some [] else none), frames, back start s⟩
  | some out, .single _ _ => some ⟨.gave (some out), frames, s⟩
  | none, .round _ _ _ start _ out => some ⟨.gave (some out), frames, back start s⟩
  | some more, .round depth op origin start count out =>
    if s.cursor.offset = start then some ⟨.gave (some (out ++ more)), frames, s⟩
    else some ⟨.attempt depth op,
      .round depth op origin s.cursor.offset (count + 1) (out ++ more) :: frames, s⟩
  | none, .all _ _ _ => some ⟨.gave none, frames, s⟩
  | some more, .all _ [] out => some ⟨.gave (some (out ++ more)), frames, s⟩
  | some more, .all depth (op :: ops) out =>
    some ⟨.follow depth op, .all depth ops (out ++ more) :: frames, s⟩
  | some out, .any _ _ => some ⟨.gave (some out), frames, s⟩
  | none, .any _ [] => some ⟨.gave none, frames, s⟩
  | none, .any depth (op :: ops) => some ⟨.follow depth op, .any depth ops :: frames, s⟩
  | none, .call _ _ => some ⟨.took none, frames, s⟩
  | some out, .call entity fields =>
    some (after frames (fun fields => .took (some (assemble entity fields out)))
      (Run.check fields s))
  | _, .text => none
  | _, .reference _ => none

/-- Goes on with what an entity was read as. -/
def hand (p : Program) (src : Source) (frames : List Frame) (s : RunState) :
    Option Node → Frame → Option Machine
  | none, .reference _ => some ⟨.gave none, frames, s⟩
  | some n, .reference destination =>
    some (after frames (fun value => .gave (some (value.elim [] (assign destination))))
      (p.nodeValue n s))
  | found, .text => some (after frames .done (p.conclude src found s))
  | _, _ => none

/-- The next step, if there is one. -/
def step (p : Program) (src : Source) : Machine → Option Machine
  | ⟨.call depth name, frames, s⟩ => some (enter p depth name frames s)
  | ⟨.follow depth op, frames, s⟩ =>
    if op.mods.plural then
      some ⟨.attempt depth op, .round depth op s.cursor.offset s.cursor.offset 1 [] :: frames, s⟩
    else some ⟨.attempt depth op, .single op.mods.optional s.cursor.offset :: frames, s⟩
  | ⟨.attempt depth (.leaf _ token destination), frames, s⟩ =>
    some (begin src depth destination frames s token)
  | ⟨.attempt depth (.all _ ops), frames, s⟩ =>
    some ⟨.gave (some []), .all depth ops [] :: frames, s⟩
  | ⟨.attempt depth (.any _ ops), frames, s⟩ => some ⟨.gave none, .any depth ops :: frames, s⟩
  | ⟨.gave found, frame :: frames, s⟩ => resume frames s found frame
  | ⟨.took found, frame :: frames, s⟩ => hand p src frames s found frame
  | _ => none

/-- The machine that is about to read a text as the root. -/
def start (p : Program) : Machine :=
  ⟨.call 0 p.root, [.text], {}⟩

/-- What the machine has come to, if it has come to an end. -/
def result? (k : Machine) : Option (Checked (Except ReadError Node)) :=
  match k.control with
  | .done result => some (.ok result)
  | .fault f => some (.error f)
  | _ => none

/-- The machine after so many steps, or where it has stopped before. -/
def run (p : Program) (src : Source) : Nat → Machine → Machine
  | 0, k => k
  | n + 1, k => match k.step p src with
    | some k' => run p src n k'
    | none => k

/-- From one machine one gets to another, step by step. -/
def Reaches (p : Program) (src : Source) : Machine → Machine → Prop :=
  Relation.ReflTransGen fun k k' => k.step p src = some k'

theorem reaches_run (p : Program) (src : Source) (n : Nat) (k : Machine) :
    Reaches p src k (k.run p src n) := by
  induction n generalizing k with
  | zero => exact .refl
  | succ n ih =>
    rw [run]
    cases hstep : k.step p src with
    | none => exact .refl
    | some k' => exact .head hstep (ih k')

theorem Reaches.exists_run {p : Program} {src : Source} {k k' : Machine}
    (h : Reaches p src k k') : ∃ n, k.run p src n = k' := by
  induction h using Relation.ReflTransGen.head_induction_on with
  | refl => exact ⟨0, rfl⟩
  | head hstep _ ih =>
    obtain ⟨n, hn⟩ := ih
    refine ⟨n + 1, ?_⟩
    rw [run, hstep]
    exact hn

/-- How many calls of entities have not come to an end. -/
def openCalls : List Frame → Nat
  | [] => 0
  | .call _ _ :: frames => openCalls frames + 1
  | _ :: frames => openCalls frames

/-- How many calls of entities are nested, with the one that is about to start. -/
def calls (k : Machine) : Nat :=
  openCalls k.frames + match k.control with
    | .call _ _ => 1
    | _ => 0

end Machine

/-! ## 2. What is on the stack -/

/-- The patterns in an instruction find no more than there is. -/
inductive Op.Modest : Op → Prop where
  | leaf {mods : Modifiers} {token : Token} {destination : Destination}
    (h : ∀ shown find, token = .pattern shown find → Matcher.Modest find) :
    Modest (.leaf mods token destination)
  | all {mods : Modifiers} {ops : List Op} (h : ∀ op ∈ ops, op.Modest) : Modest (.all mods ops)
  | any {mods : Modifiers} {ops : List Op} (h : ∀ op ∈ ops, op.Modest) : Modest (.any mods ops)

/-- The patterns of a program find no more than there is, and so does what may be passed over. -/
structure Program.Modest (p : Program) (src : Source) : Prop where
  ignore : ∀ find, src.ignore = some find → Matcher.Modest find
  body : ∀ name proc op, p.procedure? name = some proc → proc.body = some (.ok op) → op.Modest

/-- A stack as it comes about where so many calls are open and the cursor is at the given offset.
    No call was started at a depth beyond the limit, and what is on the stack goes on at the depth
    of the call it belongs to. What was begun was begun before the cursor, what is further down
    earlier, and each round of a repetition but the first has moved the cursor. -/
inductive Stacked (maxDepth : Nat) : Nat → Nat → List Frame → Prop where
  | empty {o : Nat} : Stacked maxDepth 0 o []
  | text {o : Nat} : Stacked maxDepth 0 o [.text]
  | call {c o : Nat} {frames : List Frame} {entity : Name} {fields : Checked (List Field)}
    (hdepth : c ≤ maxDepth) (h : Stacked maxDepth c o frames) :
    Stacked maxDepth (c + 1) o (.call entity fields :: frames)
  | reference {c o : Nat} {frames : List Frame} {destination : Destination}
    (h : Stacked maxDepth c o frames) : Stacked maxDepth c o (.reference destination :: frames)
  | single {c o start : Nat} {frames : List Frame} {optional : Bool} (hstart : start ≤ o)
    (h : Stacked maxDepth c start frames) :
    Stacked maxDepth c o (.single optional start :: frames)
  | round {c o depth origin start count : Nat} {op : Op} {out : Assignments}
    {frames : List Frame} (hdepth : depth + 1 = c) (hop : op.Modest)
    (hcount : origin + count ≤ start + 1) (hstart : start ≤ o)
    (h : Stacked maxDepth c start frames) :
    Stacked maxDepth c o (.round depth op origin start count out :: frames)
  | all {c o depth : Nat} {ops : List Op} {out : Assignments} {frames : List Frame}
    (hdepth : depth + 1 = c) (hops : ∀ op ∈ ops, op.Modest) (h : Stacked maxDepth c o frames) :
    Stacked maxDepth c o (.all depth ops out :: frames)
  | any {c o depth : Nat} {ops : List Op} {frames : List Frame} (hdepth : depth + 1 = c)
    (hops : ∀ op ∈ ops, op.Modest) (h : Stacked maxDepth c o frames) :
    Stacked maxDepth c o (.any depth ops :: frames)

namespace Stacked

variable {maxDepth c o : Nat} {frames : List Frame}

/-- A stack stays as it is while the cursor moves on. -/
theorem mono (h : Stacked maxDepth c o frames) {o' : Nat} (ho : o ≤ o') :
    Stacked maxDepth c o' frames := by
  induction h generalizing o' with
  | empty => exact .empty
  | text => exact .text
  | call hdepth _ ih => exact .call hdepth (ih ho)
  | reference _ ih => exact .reference (ih ho)
  | single hstart h _ => exact .single (Nat.le_trans hstart ho) h
  | round hdepth hop hcount hstart h _ => exact .round hdepth hop hcount (Nat.le_trans hstart ho) h
  | all hdepth hops _ ih => exact .all hdepth hops (ih ho)
  | any hdepth hops _ ih => exact .any hdepth hops (ih ho)

theorem openCalls_eq (h : Stacked maxDepth c o frames) : Machine.openCalls frames = c := by
  induction h with
  | empty => rfl
  | text => rfl
  | call _ _ ih => rw [Machine.openCalls, ih]
  | _ => assumption

theorem calls_le (h : Stacked maxDepth c o frames) : c ≤ maxDepth + 1 := by
  induction h with
  | call hdepth _ _ => omega
  | empty => omega
  | text => omega
  | _ => assumption

/-- Each round of a repetition on the stack but the first has moved the cursor. -/
theorem count_le (h : Stacked maxDepth c o frames) {depth origin start count : Nat} {op : Op}
    {out : Assignments} (hmem : .round depth op origin start count out ∈ frames) :
    origin + count ≤ o + 1 := by
  induction h with
  | empty => simp at hmem
  | text => simp at hmem
  | single hstart h ih =>
    have := ih (by simpa using hmem)
    omega
  | round hdepth hop hcount hstart h ih =>
    rcases List.mem_cons.1 hmem with heq | hmem
    · cases heq
      omega
    · have := ih hmem
      omega
  | call _ _ ih => exact ih (by simpa using hmem)
  | reference _ ih => exact ih (by simpa using hmem)
  | all _ _ _ ih => exact ih (by simpa using hmem)
  | any _ _ _ ih => exact ih (by simpa using hmem)

end Stacked

/-- What is to be done goes on at the depth of the call it belongs to. -/
def Control.At (c : Nat) : Control → Prop
  | call depth _ => depth = c
  | follow depth op => depth + 1 = c ∧ op.Modest
  | attempt depth op => depth + 1 = c ∧ op.Modest
  | _ => True

/-- A machine as it comes about while a text is read. -/
inductive Machine.Sound (p : Program) (src : Source) : Machine → Prop where
  | running {control : Control} {frames : List Frame} {s : RunState} {c : Nat}
    (hwithin : s.cursor.offset ≤ src.size)
    (hstacked : Stacked p.maxDepth c s.cursor.offset frames) (hat : control.At c) :
    Sound p src ⟨control, frames, s⟩
  | done {result : Except ReadError Node} {s : RunState} : Sound p src ⟨.done result, [], s⟩
  | fault {f : Fault} {s : RunState} : Sound p src ⟨.fault f, [], s⟩

/-! ## 3. What a step keeps -/

/-- A step of the scanner that stays in the text keeps a run there. -/
theorem Source.Confines.keeps {α : Type} {src : Source} {scan : Scan α} (h : src.Confines scan) :
    Run.Keeps (fun s => s.cursor.offset ≤ src.size) (fun _ => True) (Run.scan scan) := by
  intro s hs
  rw [Run.scan]
  cases hscan : scan s.cursor with
  | ok a c => exact h s.cursor a c hs hscan
  | error f c => trivial

/-- A step that keeps a run in the text ends well in the text only. -/
theorem Run.Keeps.within {α : Type} {limit : Nat} {step : Run α}
    (h : Run.Keeps (fun s => s.cursor.offset ≤ limit) (fun _ => True) step) {s t : RunState} {a : α}
    (hs : s.cursor.offset ≤ limit) (hok : step s = .ok a t) : t.cursor.offset ≤ limit := by
  have hkept := h s hs
  rwa [hok] at hkept

/-- A request leaves the run where it stands. -/
theorem Run.eq_of_check {α : Type} {x : Checked α} {s t : RunState} {a : α}
    (h : Run.check x s = .ok a t) : s = t := by
  cases x with
  | ok b => cases h; rfl
  | error f => cases h

namespace Machine

variable {p : Program} {src : Source} {frames : List Frame} {s : RunState} {c : Nat}

theorem Sound.after {α : Type} {answer : α → Control} {r : EStateM.Result Fault RunState α}
    (h : ∀ a t, r = .ok a t → Sound p src ⟨answer a, frames, t⟩) :
    Sound p src (after frames answer r) := by
  cases r with
  | ok a t => exact h a t rfl
  | error f t => exact .fault

/-- Where a call starts, there is one more, if it is not too deep. -/
theorem Sound.enter (hmodest : p.Modest src) (hwithin : s.cursor.offset ≤ src.size)
    (hstacked : Stacked p.maxDepth c s.cursor.offset frames) (name : Name) :
    Sound p src (enter p c name frames s) := by
  unfold Machine.enter
  split
  · exact .running hwithin hstacked trivial
  · next hdeep =>
    split
    · exact .running hwithin hstacked trivial
    · next proc hproc =>
      split
      · exact .running hwithin hstacked trivial
      · next body hbody =>
        refine .after fun op t hop => ?_
        cases body with
        | error f => cases hop
        | ok op' =>
          cases hop
          exact .running hwithin (.call (Nat.le_of_not_lt hdeep) hstacked)
            ⟨rfl, hmodest.body name proc op hproc hbody⟩

/-- A step that moves the cursor on within the text leaves the stack as it is. -/
theorem Sound.gave (hwithin : s.cursor.offset ≤ src.size)
    (hstacked : Stacked p.maxDepth c s.cursor.offset frames) {step : Run (Option Assignments)}
    (hkeeps : Run.Keeps (fun s => s.cursor.offset ≤ src.size) (fun _ => True) step)
    (hadvances : Run.Advances step) : Sound p src (Machine.after frames Control.gave (step s)) :=
  .after fun found t hok =>
    .running (hkeeps.within hwithin hok) (hstacked.mono (hadvances s found t hok)) trivial

theorem Sound.begin (hmodest : p.Modest src) (hwithin : s.cursor.offset ≤ src.size)
    (hstacked : Stacked p.maxDepth c s.cursor.offset frames) {token : Token}
    (htoken : ∀ shown find, token = .pattern shown find → Matcher.Modest find) {depth : Nat}
    (hdepth : depth + 1 = c) (destination : Destination) :
    Sound p src (begin src depth destination frames s token) := by
  have hadvances : ∀ token : Token, Run.Advances (token.run src (fun _ => pure none) destination) :=
    fun token => token.advances (fun _ => (Run.Still.pure none).advances) destination
  cases token with
  | literal text witness =>
    refine Sound.gave hwithin hstacked ?_ (hadvances (.literal text witness))
    exact (Source.Confines.literal hmodest.ignore text).keeps.found rfl fun _ => .pure _
  | pattern shown find =>
    refine Sound.gave hwithin hstacked ?_ (hadvances (.pattern shown find))
    exact (Source.Confines.pattern hmodest.ignore (htoken shown find rfl) shown).keeps.found rfl
      fun _ => .pure _
  | entity target => exact .running hwithin (.reference hstacked) hdepth

/-- What was begun is undone up to where it was begun, or goes on. -/
theorem Sound.resume {found : Option Assignments} {frame : Frame} {k : Machine}
    (hwithin : s.cursor.offset ≤ src.size)
    (hstacked : Stacked p.maxDepth c s.cursor.offset (frame :: frames))
    (hresume : resume frames s found frame = some k) : k.Sound p src := by
  cases hstacked with
  | text => cases found <;> cases hresume
  | reference h => cases found <;> cases hresume
  | call hdepth h =>
    cases found with
    | none =>
      cases hresume
      exact .running hwithin h trivial
    | some out =>
      cases hresume
      refine .after fun fields t hok => ?_
      obtain rfl := Run.eq_of_check hok
      exact .running hwithin h trivial
  | single hstart h =>
    cases found with
    | none =>
      cases hresume
      exact .running (Nat.le_trans hstart hwithin) h trivial
    | some out =>
      cases hresume
      exact .running hwithin (h.mono hstart) trivial
  | round hdepth hop hcount hstart h =>
    cases found with
    | none =>
      cases hresume
      exact .running (Nat.le_trans hstart hwithin) h trivial
    | some more =>
      rw [Machine.resume] at hresume
      split at hresume
      · cases hresume
        exact .running hwithin (h.mono hstart) trivial
      -- the round has moved the cursor, so the next one may be counted
      · next hmoved =>
        cases hresume
        exact .running hwithin
          (.round hdepth hop (by omega) (Nat.le_refl _) (h.mono hstart)) ⟨hdepth, hop⟩
  | @all _ _ depth ops out _ hdepth hops h =>
    cases found with
    | none =>
      cases hresume
      exact .running hwithin h trivial
    | some more =>
      cases ops with
      | nil =>
        cases hresume
        exact .running hwithin h trivial
      | cons op ops =>
        cases hresume
        exact .running hwithin
          (.all hdepth (fun op h => hops op (List.mem_cons_of_mem _ h)) h)
          ⟨hdepth, hops op List.mem_cons_self⟩
  | @any _ _ depth ops _ hdepth hops h =>
    cases found with
    | some out =>
      cases hresume
      exact .running hwithin h trivial
    | none =>
      cases ops with
      | nil =>
        cases hresume
        exact .running hwithin h trivial
      | cons op ops =>
        cases hresume
        exact .running hwithin
          (.any hdepth (fun op h => hops op (List.mem_cons_of_mem _ h)) h)
          ⟨hdepth, hops op List.mem_cons_self⟩

/-- What stands for an entity is sent to its place; or the text comes to its end. -/
theorem Sound.hand {found : Option Node} {frame : Frame} {k : Machine}
    (hwithin : s.cursor.offset ≤ src.size)
    (hstacked : Stacked p.maxDepth c s.cursor.offset (frame :: frames))
    (hhand : hand p src frames s found frame = some k) : k.Sound p src := by
  cases hstacked with
  | text =>
    obtain rfl : k = Machine.after [] .done (p.conclude src found s) := by
      cases found <;> exact (Option.some.inj hhand).symm
    exact .after fun result t _ => .done
  | reference h =>
    cases found with
    | none =>
      cases hhand
      exact .running hwithin h trivial
    | some n =>
      cases hhand
      refine .after fun value t hok => ?_
      have hstill : t.cursor.offset = s.cursor.offset :=
        Program.still_nodeValue n s value t hok
      exact .running (hstill ▸ hwithin) (hstill ▸ h) trivial
  | _ => cases found <;> cases hhand

/-- What holds of a machine holds of it after the next step. -/
theorem Sound.step {k k' : Machine} (hmodest : p.Modest src) (h : k.Sound p src)
    (hstep : k.step p src = some k') : k'.Sound p src := by
  cases h with
  | done => cases hstep
  | fault => cases hstep
  | @running control frames s c hwithin hstacked hat =>
    cases control with
    | call depth name =>
      cases hstep
      obtain rfl : depth = c := hat
      exact .enter hmodest hwithin hstacked name
    | follow depth op =>
      obtain ⟨hdepth, hop⟩ := hat
      rw [Machine.step] at hstep
      split at hstep
      · cases hstep
        exact .running hwithin (.round hdepth hop (Nat.le_refl _) (Nat.le_refl _) hstacked)
          ⟨hdepth, hop⟩
      · cases hstep
        exact .running hwithin (.single (Nat.le_refl _) hstacked) ⟨hdepth, hop⟩
    | attempt depth op =>
      obtain ⟨hdepth, hop⟩ := hat
      cases hop with
      | leaf htoken =>
        cases hstep
        exact .begin hmodest hwithin hstacked htoken hdepth _
      | all hops =>
        cases hstep
        exact .running hwithin (.all hdepth hops hstacked) trivial
      | any hops =>
        cases hstep
        exact .running hwithin (.any hdepth hops hstacked) trivial
    | gave found =>
      cases frames with
      | nil => cases hstep
      | cons frame frames => exact .resume hwithin hstacked hstep
    | took found =>
      cases frames with
      | nil => cases hstep
      | cons frame frames => exact .hand hwithin hstacked hstep
    | done result => cases hstep
    | fault f => cases hstep

/-- Nothing is wrong with the machine at the start. -/
theorem Sound.start (p : Program) (src : Source) : Sound p src (start p) :=
  .running (Nat.zero_le _) .text rfl

/-- What holds of a machine holds wherever it gets. -/
theorem Reaches.sound {k k' : Machine} (hmodest : p.Modest src) (hreaches : Reaches p src k k')
    (h : k.Sound p src) : k'.Sound p src := by
  induction hreaches with
  | refl => exact h
  | tail _ hstep ih => exact ih.step hmodest hstep

/-! ## 4. Bounds -/

/-- Entities are nested no deeper than the limit allows; the one that is refused comes on top of
    them. -/
theorem Sound.calls_le {k : Machine} (h : k.Sound p src) : k.calls ≤ p.maxDepth + 2 := by
  cases h with
  | done => exact Nat.zero_le _
  | fault => exact Nat.zero_le _
  | @running control frames s c _ hstacked _ =>
    have hcalls := hstacked.calls_le
    rw [calls, hstacked.openCalls_eq]
    cases control <;> simp only <;> omega

/-- A repetition has at most one round more than there are bytes left where it is begun. -/
theorem Sound.count_le {k : Machine} (h : k.Sound p src) {depth origin start count : Nat}
    {op : Op} {out : Assignments}
    (hmem : .round depth op origin start count out ∈ k.frames) :
    count ≤ src.size - origin + 1 := by
  cases h with
  | done => exact absurd hmem List.not_mem_nil
  | fault => exact absurd hmem List.not_mem_nil
  | running hwithin hstacked _ =>
    have hcount := hstacked.count_le hmem
    omega

end Machine

end Ebnf
