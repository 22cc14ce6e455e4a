import Std.Data.HashMap
import Ebnf.Regex.Bytes
import Ebnf.Regex.Pattern

/-!
# How much room a pattern needs

A pattern with large bounds may be short to write and huge to work with. So an automaton over bytes
is laid out beforehand, once for reading onwards and once for reading backwards, and a pattern for
which either takes too much room is refused. Of the automaton only the number of its states and the
room for their links are kept.

* `Layout`: what has been laid out, with its room;
* `layOutSet`: lays out one character out of a set. States that lead to the same places may be
  shared, as far as they are remembered (`Recent`);
* `layOutTexts`: lays out a choice between texts;
* `Pattern.layOut`: lays out a pattern;
* `Pattern.fits`: whether the room suffices.
-/

namespace Ebnf.Regex

open Unicode (CharSet CodeRange)

/-! ## 1. Layouts -/

/-- The room for a state. -/
def stateRoom : Nat := 32

/-- The room for a link out of a fork. -/
def forkRoom : Nat := 4

/-- The room for a link out of a state that asks for one byte out of several ranges. -/
def rangeRoom : Nat := 8

/-- The greatest room that an automaton may need. -/
def maxRoom : Nat := 10485760

/-- What has been laid out so far. -/
structure Layout where
  /-- The number of states. -/
  states : Nat := 0
  /-- The room that links take beyond their states. -/
  links : Nat := 0
deriving DecidableEq, Repr

/-- The room that a layout takes. -/
def Layout.room (l : Layout) : Nat :=
  stateRoom * l.states + l.links

/-- Whether there is room for a layout. -/
def Layout.fits (l : Layout) : Bool :=
  l.room ≤ maxRoom

/-- A step in laying out an automaton. -/
abbrev Plan (α : Type) := StateM Layout α

namespace Plan

/-- Adds states. -/
def addStates (n : Nat) : Plan Unit :=
  modify fun l => { l with states := l.states + n }

/-- Adds a state with room for its links; answers its place. -/
def addState (links : Nat) : Plan Nat := fun l =>
  (l.states, { states := l.states + 1, links := l.links + links })

/-- Adds links out of forks. -/
def addLinks (n : Nat) : Plan Unit :=
  modify fun l => { l with links := l.links + n * forkRoom }

/-- Adds the link from the end of a part to what comes next. It takes room if the end is a fork. -/
def addEndLink (isFork : Bool) : Plan Unit :=
  addLinks isFork.toNat

end Plan

/-! ## 2. Remembering states -/

/-- Mixes a number into a hash. -/
def mixHash (h : UInt64) (n : Nat) : UInt64 :=
  (h ^^^ n.toUInt64) * 0x100000001B3

/-- The hash of several numbers. -/
def hashOf (ns : List Nat) : UInt64 :=
  ns.foldl mixHash 0xCBF29CE484222325

/-- The states laid out last, by what they are known for. There is a limited number of slots, and of
    two states that belong into one slot the later one stays. -/
abbrev Recent (α : Type) := Std.HashMap Nat (α × Nat)

/-- The state known for something, or else a new one, which is then remembered in the given slot. -/
def placeFor {α : Type} [BEq α] (slot : Nat) (key : α) (links : Nat) :
    StateT (Recent α) (StateM Layout) Nat := do
  match (← get)[slot]? with
  | some (known, place) => if known == key then return place
  | none => pure ()
  let place ← Plan.addState links
  modify (·.insert slot (key, place))
  return place

/-! ## 3. One character out of a set -/

/-- The links of a state that asks for a byte: ranges of bytes, and where each leads to. -/
abbrev ByteLinks := List (CodeRange × Nat)

/-- The slot for a state with the given links. -/
def linksSlot (links : ByteLinks) : Nat :=
  (hashOf (links.flatMap fun (r, place) => [r.first, r.last, place])).toNat % 10000

/-- What follows on each of the ranges that sequences begin with. Sequences that begin alike are
    neighbours. -/
def branches : List (List CodeRange) → List (CodeRange × List (List CodeRange))
  | [] => []
  | [] :: rest => branches rest
  | (r :: following) :: rest =>
    match branches rest with
    | (s, others) :: more =>
      if r = s then (r, following :: others) :: more
      else (r, [following]) :: (s, others) :: more
    | [] => [(r, [following])]

/-- Lays out sequences of ranges of bytes, `depth` long at most, that lead to `target`; answers the
    state to begin with. -/
def layOutOnwards (target : Nat) :
    Nat → List (List CodeRange) → StateT (Recent ByteLinks) (StateM Layout) Nat
  | 0, _ => return target
  | depth + 1, sequences => do
    let links ← (branches sequences).mapM fun (r, rests) => do
      if rests.all List.isEmpty then return (r, target)
      else return (r, ← layOutOnwards target depth rests)
    placeFor (linksSlot links) links (links.length * rangeRoom)

/-- Lays out a sequence of ranges of bytes read backwards, so that its last range is asked for
    first; `target` is where the sequence leads to. Answers the state to begin with. -/
def layOutBackwards (target : Nat) :
    List CodeRange → StateT (Recent (Nat × CodeRange)) (StateM Layout) Nat
  | [] => return target
  | r :: rest => do
    let slot := (hashOf [target, r.first, r.last]).toNat % 1000
    layOutBackwards (← placeFor slot (target, r) 0) rest

/-- Lays out one character out of a set. -/
def layOutSet (backwards : Bool) (s : CharSet) : Plan Unit := do
  if s.ranges.all (·.last < 128) then
    Plan.addStates 1
    let _ ← Plan.addState (s.ranges.length * rangeRoom)
  else if backwards then
    let fork ← Plan.addState 0
    Plan.addStates 1
    let sequences := setSequences s
    Plan.addLinks sequences.length
    let _ ← (sequences.forM fun sequence =>
      discard (layOutBackwards (fork + 1) sequence)).run ∅
  else
    let target ← Plan.addState 0
    let _ ← (layOutOnwards target 4 (setSequences s)).run ∅

/-! ## 4. A choice between texts -/

/-- Drops all but one of the empty sequences at the start. -/
def dropRepeatedEnds : List (List UInt8) → List (List UInt8)
  | [] :: [] :: rest => dropRepeatedEnds ([] :: rest)
  | sequences => sequences

/-- The sequences between the empty ones. -/
def runsBetweenEnds : List (List UInt8) → List (List (List UInt8))
  | [] => [[]]
  | [] :: rest => [] :: runsBetweenEnds rest
  | sequence :: rest =>
    match runsBetweenEnds rest with
    | run :: more => (sequence :: run) :: more
    | [] => [[sequence]]

/-- What follows on each of the bytes that sequences begin with, in the order of their first
    appearance. -/
def branchesByByte (sequences : List (List UInt8)) : List (UInt8 × List (List UInt8)) :=
  sequences.foldl add []
where
  /-- Adds what follows on the first byte of a sequence. -/
  add (found : List (UInt8 × List (List UInt8))) : List UInt8 → List (UInt8 × List (List UInt8))
    | [] => found
    | b :: following =>
      match found with
      | [] => [(b, [following])]
      | (c, others) :: more =>
        if b = c then (c, others ++ [following]) :: more
        else (c, others) :: add more (b :: following)

/-- Lays out sequences of bytes, `depth` long at most, that share the states for their common
    beginnings. The order of preference is kept, so nothing is shared across the end of a sequence
    that others go on from. -/
def layOutTree : Nat → List (List UInt8) → Plan Unit
  | 0, _ => return
  | depth + 1, sequences => do
    let runs := runsBetweenEnds (dropRepeatedEnds sequences)
    for run in runs do
      let found := branchesByByte run
      for (_, rests) in found do
        if !rests.all List.isEmpty then layOutTree depth rests
      if !found.isEmpty then
        let _ ← Plan.addState (if found.length = 1 then 0 else found.length * rangeRoom)
        Plan.addLinks 1
    Plan.addLinks (runs.length - 1)
    Plan.addStates 1

/-- The bytes of a text. -/
def bytesOf (cs : List Char) : List UInt8 :=
  cs.flatMap String.utf8EncodeChar

/-- Lays out a choice between texts. -/
def layOutTexts (backwards : Bool) (texts : List (List Char)) : Plan Unit := do
  let sequences := texts.map fun cs => if backwards then (bytesOf cs).reverse else bytesOf cs
  Plan.addStates 1
  layOutTree ((sequences.map List.length).foldl max 0 + 1) sequences

/-! ## 5. Patterns -/

mutual

/-- The least number of bytes that the pattern matches, if it matches anything. -/
def Pattern.leastLength? : Pattern → Option Nat
  | .empty => some 0
  | .text cs => some (bytesOf cs).length
  | .one s => if s.isEmpty then none else some 1
  | .look _ => some 0
  | .repeated r inner => inner.leastLength?.map (r.min * ·)
  | .capture inner => inner.leastLength?
  | .concat items => leastSum? items
  | .alternation items => leastOfAny? items

/-- The least number of bytes that the patterns match one after the other. -/
def leastSum? : List Pattern → Option Nat
  | [] => some 0
  | p :: ps => do return (← p.leastLength?) + (← leastSum? ps)

/-- The least number of bytes that one of the patterns matches, if each matches anything. -/
def leastOfAny? : List Pattern → Option Nat
  | [] => none
  | [p] => p.leastLength?
  | p :: ps => do return min (← p.leastLength?) (← leastOfAny? ps)

end

/-- Whether the pattern can match something, and never the empty text. -/
def Pattern.isSolid (p : Pattern) : Bool :=
  match p.leastLength? with
  | some n => 0 < n
  | none => false

/-- The characters of a text. -/
def Pattern.text? : Pattern → Option (List Char)
  | .text cs => some cs
  | _ => none

namespace Plan

/-- Takes a step several times, as long as there is room. The step is told whether the part before
    ends in a fork and answers whether its own part does. -/
def again (step : Bool → Plan Bool) : Nat → Bool → Plan Bool
  | 0, isFork => return isFork
  | n + 1, isFork => do
    if !(← get).fits then return isFork
    again step n (← step isFork)

/-- Lays out a part several times in a row. -/
def row (part : Plan Bool) : Nat → Plan Bool
  | 0 => do
    addStates 1
    return false
  | n + 1 => do
    again (fun before => do
      let isFork ← part
      addEndLink before
      return isFork) n (← part)

/-- Lays out a part that may be left out. -/
def optional (part : Plan Bool) : Plan Bool := do
  addStates 1
  addEndLink (← part)
  addStates 1
  addLinks 2
  return false

/-- Lays out a part any number of times. A part that may be empty is entered through a fork of its
    own. -/
def loop (isSolid : Bool) (part : Plan Bool) : Plan Bool := do
  if isSolid then
    addStates 1
    let _ ← part
    addLinks 1
    return true
  else
    addEndLink (← part)
    addStates 3
    addLinks 4
    return false

/-- Lays out a part a least number of times, which is not zero, or more often. -/
def atLeast (n : Nat) (part : Plan Bool) : Plan Bool := do
  if 1 < n then
    addEndLink (← row part (n - 1))
  addEndLink (← part)
  addStates 1
  addLinks 1
  return true

/-- Lays out a part a least number of times, and more often up to a greatest number. -/
def between (least most : Nat) (part : Plan Bool) : Plan Bool := do
  let isFork ← row part least
  addStates 1
  addEndLink (← again (fun before => do
    addStates 1
    let isFork ← part
    addEndLink before
    addLinks 2
    return isFork) (most - least) isFork)
  return false

/-- Lays out a repeated part. -/
def repetition (r : Repetition) (isSolid : Bool) (part : Plan Bool) : Plan Bool :=
  match r.min, r.max with
  | 0, some 1 => optional part
  | 0, none => loop isSolid part
  | least, none => atLeast least part
  | least, some most => if least = most then row part least else between least most part

end Plan

mutual

/-- Lays out a pattern; answers whether it ends in a fork. -/
def Pattern.layOut (backwards : Bool) : Pattern → Plan Bool
  | .empty | .look _ => do
    Plan.addStates 1
    return false
  | .text cs => do
    Plan.addStates (bytesOf cs).length
    return false
  | .one s => do
    layOutSet backwards s
    return false
  | .capture inner => do
    if backwards then inner.layOut backwards
    else
      Plan.addStates 1
      Plan.addEndLink (← inner.layOut backwards)
      Plan.addStates 1
      return false
  | .repeated r inner => Plan.repetition r inner.isSolid (inner.layOut backwards)
  | .concat items => layOutAll backwards items
  | .alternation items => do
    match items.mapM Pattern.text? with
    | some texts =>
      layOutTexts backwards texts
      return false
    | none =>
      layOutAny backwards 0 items
      return false

/-- Lays out patterns one after the other; answers whether the last that is reached ends in a
    fork. -/
def layOutAll (backwards : Bool) : List Pattern → Plan Bool
  | [] => return false
  | [p] => p.layOut backwards
  | p :: ps => do
    if backwards then
      let isFork ← layOutAll backwards ps
      let last ← p.layOut backwards
      Plan.addEndLink isFork
      return last
    else
      let isFork ← p.layOut backwards
      let last ← layOutAll backwards ps
      Plan.addEndLink isFork
      return last

/-- Lays out alternatives, of which `n` have been laid out before. -/
def layOutAny (backwards : Bool) (n : Nat) : List Pattern → Plan Unit
  | [] => return
  | p :: ps => do
    Plan.addEndLink (← p.layOut backwards)
    Plan.addLinks 1
    if n = 1 then Plan.addStates 2
    layOutAny backwards (n + 1) ps

end

/-! ## 6. Whole patterns -/

mutual

/-- Whether a condition holds wherever a match of the pattern begins, or ends if read backwards. -/
def Pattern.opensWith (l : Look) (backwards : Bool) : Pattern → Bool
  | .look m => l == m
  | .repeated r inner => 0 < r.min && inner.opensWith l backwards
  | .capture inner => inner.opensWith l backwards
  | .concat items => if backwards then (anyEndsWith l items).1 else anyOpensWith l items
  | .alternation items => allOpenWith l backwards items
  | _ => false

/-- Whether a condition holds wherever a match of a sequence begins. -/
def anyOpensWith (l : Look) : List Pattern → Bool
  | [] => false
  | p :: ps => p.opensWith l false || (p.isBlank && anyOpensWith l ps)

/-- Whether a condition holds wherever a match of a sequence ends, and whether the sequence matches
    nothing but the empty text. -/
def anyEndsWith (l : Look) : List Pattern → Bool × Bool
  | [] => (false, true)
  | p :: ps =>
    let (found, blank) := anyEndsWith l ps
    (found || (blank && p.opensWith l true), blank && p.isBlank)

/-- Whether a condition holds wherever a match of an alternative begins or ends. -/
def allOpenWith (l : Look) (backwards : Bool) : List Pattern → Bool
  | [] => true
  | p :: ps => p.opensWith l backwards && allOpenWith l backwards ps

end

/-- Lays out the automaton of a pattern. Unless a match can begin at one place only, the automaton
    begins with a loop over the bytes before. -/
def Pattern.layOutWhole (p : Pattern) (backwards : Bool) : Plan Unit := do
  if p.opensWith (if backwards then .textEnd else .textStart) backwards then
    Plan.addStates 1
  else
    Plan.addStates 2
    let _ ← Plan.addState rangeRoom
    Plan.addLinks 2
  Plan.addEndLink (← (if backwards then p else .capture p).layOut backwards)
  Plan.addStates 1

/-- Whether there is room for a pattern. -/
def Pattern.fits (p : Pattern) : Bool :=
  ((p.layOutWhole true).run {}).2.fits && ((p.layOutWhole false).run {}).2.fits

end Ebnf.Regex
