import Ebnf.Event
import Ebnf.Reading.Cursor
import Ebnf.Reading.Node
import Ebnf.Reading.Program

/-!
# Reading a text

A program is run on a text. Alternatives are tried in order, and what fails is undone, so the way
that is kept is the first one that succeeds. A repetition goes on for as long as its body succeeds
and moves the cursor. An entity that lies too deep fails like any other.

* `Run`: steps of reading; a step that yields `none` has failed and leaves the cursor where it was;
* `repeated`, `modified`: repetition and options;
* `Op.run`, `Program.entity`: instructions and entities;
* `Program.read`: a whole text.
-/

namespace Ebnf

/-! ## 1. Steps -/

/-- Where a run stands. -/
structure RunState where
  /-- The place in the text. -/
  cursor : Cursor := {}
  /-- The first entity that lay too deep. -/
  overflow : Option Name := none
  /-- The events so far. -/
  events : Array Event := #[]
deriving DecidableEq, Repr

/-- A step of a run. -/
abbrev Run (α : Type) := EStateM Fault RunState α

/-- The values that were read, in order, with the places they go to. -/
abbrev Assignments := List (Destination × Value)

namespace Run

/-- A step that only concerns the cursor. -/
def scan {α : Type} (step : Scan α) : Run α := fun s =>
  match step s.cursor with
  | .ok a c => .ok a { s with cursor := c }
  | .error f c => .error f { s with cursor := c }

/-- Tells of an event. -/
def tell (e : Event) : Run Unit :=
  modify fun s => { s with events := s.events.push e }

/-- The offset of the cursor. -/
def offset : Run Nat :=
  return (← get).cursor.offset

/-- The result of a request, unless it is a fault. -/
def check {α : Type} (x : Checked α) : Run α :=
  match x with
  | .ok a => return a
  | .error f => throw f

end Run

/-! ## 2. Options and repetition -/

/-- Repeats a step until it fails or does not move the cursor. What it yielded each time is put
    together; a failure at the end is undone. `limit` is the size of the text, which the cursor
    cannot pass. -/
def repeated (limit : Nat) (step : Run (Option Assignments)) (s : RunState) :
    EStateM.Result Fault RunState Assignments :=
  match step s with
  | .error f t => .error f t
  | .ok none t => .ok [] { t with cursor := t.cursor.moveTo s.cursor.offset }
  | .ok (some out) t =>
    if s.cursor.offset < t.cursor.offset ∧ t.cursor.offset ≤ limit then
      match repeated limit step t with
      | .ok more u => .ok (out ++ more) u
      | .error f u => .error f u
    else .ok out t
termination_by limit - s.cursor.offset

/-- Reads something as often as it is wanted. What fails is undone, and is a success all the same
    where it may be missing. -/
def modified (limit : Nat) (mods : Modifiers) (step : Run (Option Assignments)) :
    Run (Option Assignments) :=
  if mods.plural then some <$> repeated limit step
  else do
    let start ← Run.offset
    match ← step with
    | some out => return some out
    | none =>
      Run.scan (Cursor.rewind start)
      return if mods.optional then some [] else none

/-! ## 3. Instructions -/

/-- A value on its way to a place. -/
def assign (destination : Destination) (v : Value) : Assignments :=
  match destination with
  | .nowhere => []
  | _ => [(destination, v)]

/-- Reads a token. `entity` reads an entity, and yields no value for one that stands for a value
    which was not read. -/
def Token.run (src : Source) (entity : Name → Run (Option (Option Value)))
    (destination : Destination) : Token → Run (Option Assignments)
  | .literal text witness => do
    let some found ← Run.scan (src.literal text) | return none
    return some (assign destination (if witness then .flag true else .text (.ofList found)))
  | .pattern shown find => do
    let some found ← Run.scan (src.pattern find shown) | return none
    return some (assign destination (.text (.ofList found)))
  | .entity target => do
    let some value ← entity target | return none
    return some (value.elim [] (assign destination))

mutual

/-- Follows an instruction. -/
def Op.run (src : Source) (entity : Name → Run (Option (Option Value))) :
    Op → Run (Option Assignments)
  | .leaf mods token destination => modified src.size mods (token.run src entity destination)
  | .all mods ops => modified src.size mods (runAll src entity ops)
  | .any mods ops => modified src.size mods (runAny src entity ops)

/-- Follows every instruction in order. -/
def runAll (src : Source) (entity : Name → Run (Option (Option Value))) :
    List Op → Run (Option Assignments)
  | [] => return some []
  | op :: ops => do
    let some out ← op.run src entity | return none
    let some more ← runAll src entity ops | return none
    return some (out ++ more)

/-- Follows the first instruction that succeeds. -/
def runAny (src : Source) (entity : Name → Run (Option (Option Value))) :
    List Op → Run (Option Assignments)
  | [] => return none
  | op :: ops => do
    match ← op.run src entity with
    | some out => return some out
    | none => runAny src entity ops

end

/-! ## 4. Entities -/

/-- The values that go to a field. -/
def valuesAt (place : Nat) (out : Assignments) : List Value :=
  (out.filter (·.1 = .field place)).map Prod.snd

/-- The value of a field: a list of all values for a plural one, else the last value. A flag is
    false where nothing was read; any other field is missing then. -/
def Field.value? (f : Field) (place : Nat) (out : Assignments) : Option Value :=
  let values := valuesAt place out
  if f.isPlural then some (.list values)
  else match values.getLast? with
    | some v => some v
    | none => if f.isWitness then some (.flag false) else none

/-- Puts the fields from `place` on into a node. -/
def fillFields (out : Assignments) (place : Nat) (n : Node) : List Field → Node
  | [] => n
  | f :: fields =>
    let filled := match f.value? place out with
      | some v => n.set f.name v
      | none => n
    fillFields out (place + 1) filled fields

/-- The node of an entity from the values that were read. -/
def assemble (entity : Name) (fields : List Field) (out : Assignments) : Node :=
  fillFields out 0 { entity } fields

namespace Program

/-- The value for which a node stands: that of its first field if its entity is virtual, else the
    node itself. -/
def nodeValue (p : Program) (n : Node) : Run (Option Value) := do
  let isVirtual ← match p.procedure? n.entity with
    | some procedure => Run.check procedure.isVirtual
    | none => pure false
  return if isVirtual then n.firstValue? else some n.toValue

/-- Reads an entity, where entities may be nested `depth` deep from here on. -/
def entity (p : Program) (src : Source) : Nat → Name → Run (Option Node)
  | 0, name => do
    Run.tell (.tooDeep name)
    modify fun s => { s with overflow := s.overflow.or (some name) }
    return none
  | depth + 1, name => do
    let some procedure := p.procedure? name | return none
    let some body := procedure.body | return none
    Run.tell (.entityTried name (← Run.offset))
    let op ← Run.check body
    let inner (target : Name) : Run (Option (Option Value)) := do
      let some n ← p.entity src depth target | return none
      return some (← p.nodeValue n)
    let some out ← op.run src inner | return none
    return some (assemble name (← Run.check procedure.fields) out)

/-! ## 5. Whole texts -/

/-- Why a run failed: an entity lay too deep, or else nothing fitted at the farthest place. -/
def failure (p : Program) (s : RunState) : ReadError :=
  match s.overflow with
  | some name => .depthLimit name p.maxDepth
  | none => .noMatch p.root s.cursor.farthest s.cursor.expected

/-- Reads a text as the root. Nothing may be left but what may be passed over. -/
def readSource (p : Program) (src : Source) : Run (Except ReadError Node) := do
  let some n ← p.entity src (p.maxDepth + 1) p.root | return .error (p.failure (← get))
  if ← Run.scan src.atEnd then return .ok n
  let s ← get
  Run.tell (.textLeft s.cursor.offset)
  -- a repetition that ended early hides what really failed
  if s.overflow.isSome ∨ s.cursor.offset < s.cursor.farthest then return .error (p.failure s)
  return .error (.trailingInput s.cursor.offset)

/-- What a text is read as, or why it cannot be read; and the events on the way. -/
def readTracing (p : Program) (text : String) :
    Checked (Except ReadError Node) × Array Event :=
  match EStateM.run (p.readSource { text := text.toList, ignore := p.ignore }) {} with
  | .ok result s => (.ok result, s.events)
  | .error f s => (.error f, s.events)

/-- What a text is read as, or why it cannot be read. -/
def read (p : Program) (text : String) : Checked (Except ReadError Node) :=
  (p.readTracing text).1

end Program

end Ebnf
