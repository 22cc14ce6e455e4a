import Ebnf.Proofs.Program
import Ebnf.Reading.Run

/-!
# Reading by the rules themselves

What a text is read as can be told without a model: the expressions of the rules are run directly,
on the same tokens and with the same limit on the depth. This reads the same texts, up to the same
places, as the program of the model does.

* `Expr.recognize`, `Grammar.recognize`: running expressions and rules directly;
* `Recognizer.iterate_induction`: repetitions that end, by their rounds;
* `Expr.recognize_choice`, `Expr.recognize_sequence`: a chain is run branch by branch, or member by
  member, however it leans;
* `Recognizer.many_marked`, `Recognizer.maybe_marked`: marks that are nested come down to two flags;
* `Expr.recognize_eq_plan`: the plan of an expression describes the same texts.
-/

namespace Ebnf

/-! ## 1. Running expressions -/

/-- Tells how far something reaches from an offset on, if it is found there. -/
abbrev Recognizer := Nat → Checked (Option Nat)

/-- How far a token reaches. -/
def Recognizer.ofScan (scan : Scan (Option (List Char))) : Recognizer := fun o =>
  match scan { offset := o } with
  | .ok (some _) c => .ok (some c.offset)
  | .ok none _ => .ok none
  | .error f _ => .error f

/-- What a step yields, whatever the state it ends in. -/
def outcome {σ α : Type} : EStateM.Result Fault σ α → Checked α
  | .ok a _ => .ok a
  | .error f _ => .error f

/-- Repeats something until it is not found any more or does not get on. The end of the text, at
    `limit`, cannot be passed. -/
def Recognizer.iterate (limit : Nat) (r : Recognizer) (o : Nat) : Checked Nat :=
  match r o with
  | .error f => .error f
  | .ok none => .ok o
  | .ok (some next) => if o < next ∧ next ≤ limit then iterate limit r next else .ok next
termination_by limit - o

namespace Recognizer

/-- The first thing, or else the second from the same offset on. -/
def either (r r' : Recognizer) : Recognizer := fun o =>
  match r o with
  | .ok none => r' o
  | found => found

/-- The first thing and then the second. -/
def both (r r' : Recognizer) : Recognizer := fun o =>
  match r o with
  | .ok (some next) => r' next
  | failed => failed

/-- Something or nothing. -/
def maybe (r : Recognizer) : Recognizer := fun o =>
  match r o with
  | .ok none => .ok (some o)
  | found => found

/-- Something any number of times. -/
def many (limit : Nat) (r : Recognizer) : Recognizer := fun o =>
  some <$> iterate limit r o

/-- The first of several things that is found. -/
def firstOf : List Recognizer → Recognizer
  | [] => fun _ => .ok none
  | r :: rs => r.either (firstOf rs)

/-- Several things in order. -/
def allOf : List Recognizer → Recognizer
  | [] => fun o => .ok (some o)
  | r :: rs => r.both (allOf rs)

end Recognizer

/-- Runs an expression on a text. `find` gives the matcher of a pattern, and `rule` runs a rule. -/
def Expr.recognize (src : Source) (find : String → Matcher) (rule : Name → Recognizer) :
    Expr → Recognizer
  | .choice left right => (left.recognize src find rule).either (right.recognize src find rule)
  | .sequence left right => (left.recognize src find rule).both (right.recognize src find rule)
  | .optional inner => (inner.recognize src find rule).maybe
  | .repetition inner => (inner.recognize src find rule).many src.size
  | .group inner => inner.recognize src find rule
  | .reference _ target => rule target
  | .literal _ text => .ofScan (src.literal text)
  | .pattern _ source => .ofScan (src.pattern (find source) source)

/-- Runs a rule, where rules may be nested `depth` deep from here on. The first rule of a name
    counts. -/
def Grammar.recognize (g : Grammar) (src : Source) (find : String → Matcher) :
    Nat → Name → Recognizer
  | 0, _ => fun _ => .ok none
  | depth + 1, name =>
    match g.rule? name with
    | none => fun _ => .ok none
    | some r => r.body.recognize src find (g.recognize src find depth)

/-- A text, and what may be passed over in it. -/
def Source.ofText (text : List Char) (ignore : Option Matcher) : Source :=
  { text, ignore }

/-- A text to be read under a configuration. -/
def ReadConfig.source (config : ReadConfig) (engine : Engine) (text : String) : Source :=
  .ofText text.toList (config.ignore.map engine.find)

/-- Whether a text as a whole, up to what may be passed over at its end, is what the first rule
    describes. -/
def Grammar.accepts (g : Grammar) (engine : Engine) (config : ReadConfig) (text : String) :
    Checked Bool :=
  let src := config.source engine text
  match g.root? with
  | none => .ok false
  | some r =>
    match g.recognize src engine.find (config.maxDepth + 1) r.name 0 with
    | .ok none => .ok false
    | .ok (some next) => outcome (src.atEnd { offset := next })
    | .error f => .error f

/-! ## 2. Chains -/

namespace Recognizer

variable {r r' r'' : Recognizer}

theorem either_assoc : (r.either r').either r'' = r.either (r'.either r'') := by
  funext o
  simp only [either]
  cases r o with
  | error f => rfl
  | ok next => cases next <;> rfl

theorem both_assoc : (r.both r').both r'' = r.both (r'.both r'') := by
  funext o
  simp only [both]
  cases r o with
  | error f => rfl
  | ok next => cases next <;> rfl

theorem firstOf_singleton : firstOf [r] = r := by
  funext o
  simp only [firstOf, either]
  cases r o with
  | error f => rfl
  | ok next => cases next <;> rfl

theorem allOf_singleton : allOf [r] = r := by
  funext o
  simp only [allOf, both]
  cases r o with
  | error f => rfl
  | ok next => cases next <;> rfl

theorem firstOf_append (rs rs' : List Recognizer) :
    firstOf (rs ++ rs') = (firstOf rs).either (firstOf rs') := by
  induction rs with
  | nil => rfl
  | cons r rs ih => rw [List.cons_append, firstOf, ih, firstOf, either_assoc]

theorem allOf_append (rs rs' : List Recognizer) :
    allOf (rs ++ rs') = (allOf rs).both (allOf rs') := by
  induction rs with
  | nil => rfl
  | cons r rs ih => rw [List.cons_append, allOf, ih, allOf, both_assoc]

end Recognizer

section

variable {src : Source} {find : String → Matcher} {rule : Name → Recognizer}

open Recognizer (firstOf allOf firstOf_append allOf_append firstOf_singleton allOf_singleton)

/-- Running a chain of choices is running its branches in order. -/
theorem Expr.recognize_alternatives (e : Expr) :
    firstOf (e.alternatives.map (Expr.recognize src find rule)) = e.recognize src find rule := by
  induction e with
  | choice left right ihl ihr =>
    rw [Expr.alternatives, List.map_append, firstOf_append, ihl, ihr, Expr.recognize]
  | _ => exact firstOf_singleton

/-- Running a chain of sequences is running its members in order. -/
theorem Expr.recognize_members (e : Expr) :
    allOf (e.members.map (Expr.recognize src find rule)) = e.recognize src find rule := by
  induction e with
  | sequence left right ihl ihr =>
    rw [Expr.members, List.map_append, allOf_append, ihl, ihr, Expr.recognize]
  | _ => exact allOf_singleton

/-- A choice is run branch by branch, however its chain leans. -/
theorem Expr.recognize_choice (left right : Expr) :
    (Expr.choice left right).recognize src find rule =
      firstOf ((left.alternatives ++ right.alternatives).map (Expr.recognize src find rule)) := by
  rw [List.map_append, firstOf_append, recognize_alternatives, recognize_alternatives,
    Expr.recognize]

/-- A sequence is run member by member, however its chain leans. -/
theorem Expr.recognize_sequence (left right : Expr) :
    (Expr.sequence left right).recognize src find rule =
      allOf ((left.members ++ right.members).map (Expr.recognize src find rule)) := by
  rw [List.map_append, allOf_append, recognize_members, recognize_members, Expr.recognize]

end

/-! ## 3. Getting on -/

/-- What never moves back. -/
def Recognizer.Forward (r : Recognizer) : Prop :=
  ∀ o next, r o = .ok (some next) → o ≤ next

/-- A step of the scanner that depends on the offset of the cursor only, and never moves back. -/
structure Steady {α : Type} (scan : Scan α) : Prop where
  blind : ∀ c c' : Cursor, c.offset = c'.offset →
    match scan c, scan c' with
    | .ok a d, .ok a' d' => a = a' ∧ d.offset = d'.offset
    | .error f _, .error f' _ => f = f'
    | _, _ => False
  forward : ∀ c a d, scan c = .ok a d → c.offset ≤ d.offset

/-- The rest of a text depends on the offset only. -/
theorem Source.rest_eq (src : Source) (c : Cursor) : src.rest c =
    match Text.dropBytes c.offset src.text with
    | some cs => .ok cs c
    | none => .error (.noBoundary c.offset) c := by
  show EStateM.run src.rest c = _
  simp only [Source.rest, EStateM.run_bind, EStateM.run_get]
  cases Text.dropBytes c.offset src.text <;> rfl

/-- What is done with the rest of a text is done where the text can be cut. -/
theorem Source.rest_bind {α : Type} (src : Source) (next : List Char → Scan α) (c : Cursor) :
    (src.rest >>= next) c =
      match Text.dropBytes c.offset src.text with
      | some cs => next cs c
      | none => .error (.noBoundary c.offset) c := by
  show EStateM.bind src.rest next c = _
  unfold EStateM.bind
  rw [src.rest_eq]
  cases Text.dropBytes c.offset src.text <;> rfl

/-- Moving the cursor is a fault where the place has no offset. -/
theorem Cursor.advance_eq (cs : List Char) (c : Cursor) :
    Cursor.advance cs c =
      if c.offset + Text.byteLength cs < UInt32.size then
        .ok () (c.moveTo (c.offset + Text.byteLength cs))
      else .error (.tooManyBytes (c.offset + Text.byteLength cs)) c := by
  show (if c.offset + Text.byteLength cs < UInt32.size then
    set (c.moveTo (c.offset + Text.byteLength cs))
    else throw (.tooManyBytes (c.offset + Text.byteLength cs)) : Scan Unit) c = _
  split <;> rfl

theorem Cursor.advance_eq_ok {cs : List Char} {c d : Cursor} :
    Cursor.advance cs c = .ok () d ↔ c.offset + Text.byteLength cs < UInt32.size ∧
      c.moveTo (c.offset + Text.byteLength cs) = d := by
  rw [Cursor.advance_eq]
  split
  · next hroom => simp [hroom]
  · next hroom => simp [hroom]

/-- Noting a failure does not move the cursor. -/
theorem Cursor.offset_noteFailure (c : Cursor) (what : String) :
    (c.noteFailure what).offset = c.offset := by
  unfold Cursor.noteFailure
  split
  · rfl
  · split <;> rfl

namespace Steady

variable {α β : Type}

/-- What a step yields depends on the offset of the cursor only. -/
theorem outcome_eq {scan : Scan α} (h : Steady scan) {c c' : Cursor} (hc : c.offset = c'.offset) :
    outcome (scan c) = outcome (scan c') := by
  have hblind := h.blind c c' hc
  cases hs : scan c with
  | ok a d =>
    cases hs' : scan c' with
    | ok a' d' => rw [hs, hs'] at hblind; exact congrArg Except.ok hblind.1
    | error f' d' => rw [hs, hs'] at hblind; exact hblind.elim
  | error f d =>
    cases hs' : scan c' with
    | ok a' d' => rw [hs, hs'] at hblind; exact hblind.elim
    | error f' d' => rw [hs, hs'] at hblind; exact congrArg Except.error hblind

theorem pure (a : α) : Steady (Pure.pure a : Scan α) where
  blind := fun _ _ h => ⟨rfl, h⟩
  forward := fun c b d h => by
    cases h
    exact Nat.le_refl _

theorem bind {scan : Scan α} {next : α → Scan β} (h : Steady scan) (hnext : ∀ a, Steady (next a)) :
    Steady (scan >>= next) where
  blind := by
    intro c c' hc
    have hfirst := h.blind c c' hc
    show match EStateM.bind scan next c, EStateM.bind scan next c' with
      | .ok a d, .ok a' d' => a = a' ∧ d.offset = d'.offset
      | .error f _, .error f' _ => f = f'
      | _, _ => False
    unfold EStateM.bind
    cases hs : scan c with
    | ok a d =>
      cases hs' : scan c' with
      | ok a' d' =>
        rw [hs, hs'] at hfirst
        obtain ⟨rfl, hd⟩ := hfirst
        exact (hnext a).blind d d' hd
      | error f' d' =>
        rw [hs, hs'] at hfirst
        exact hfirst.elim
    | error f d =>
      cases hs' : scan c' with
      | ok a' d' =>
        rw [hs, hs'] at hfirst
        exact hfirst.elim
      | error f' d' =>
        rw [hs, hs'] at hfirst
        exact hfirst
  forward := by
    intro c b e hok
    obtain ⟨a, d, hs, hrest⟩ := bind_eq_ok.1 hok
    exact Nat.le_trans (h.forward c a d hs) ((hnext a).forward d b e hrest)

theorem rest (src : Source) : Steady src.rest where
  blind := by
    intro c c' hc
    rw [src.rest_eq c, src.rest_eq c', hc]
    cases Text.dropBytes c'.offset src.text with
    | none => rfl
    | some cs => exact ⟨rfl, hc⟩
  forward := by
    intro c a d h
    rw [src.rest_eq c] at h
    split at h
    · cases h
      exact Nat.le_refl _
    · contradiction

theorem advance (cs : List Char) : Steady (Cursor.advance cs) where
  blind := by
    intro c c' hc
    rw [Cursor.advance_eq, Cursor.advance_eq, hc]
    by_cases hroom : c'.offset + Text.byteLength cs < UInt32.size
    · simp only [if_pos hroom]
      exact ⟨trivial, rfl⟩
    · simp only [if_neg hroom]
  forward := by
    intro c a d h
    obtain ⟨_, rfl⟩ := Cursor.advance_eq_ok.1 h
    exact Nat.le_add_right ..

theorem fail (what : String) : Steady (Cursor.fail what) where
  blind := by
    intro c c' hc
    exact ⟨rfl, by rw [Cursor.offset_noteFailure, Cursor.offset_noteFailure, hc]⟩
  forward := fun c a d h => by
    cases h
    exact Nat.le_of_eq (Cursor.offset_noteFailure c what).symm

theorem skip (src : Source) : Steady src.skip := by
  unfold Source.skip
  cases src.ignore with
  | none => exact .pure ()
  | some find =>
    refine (rest src).bind fun cs => ?_
    cases find cs with
    | none => exact .pure ()
    | some found => exact .advance found.text

theorem literal (src : Source) (text : String) : Steady (src.literal text) := by
  unfold Source.literal
  refine (skip src).bind fun _ => (rest src).bind fun cs => ?_
  split
  · exact (advance _).bind fun _ => .pure _
  · exact (fail _).bind fun _ => .pure _

theorem pattern (src : Source) (find : Matcher) (shown : String) :
    Steady (src.pattern find shown) := by
  unfold Source.pattern
  refine (skip src).bind fun _ => (rest src).bind fun cs => ?_
  split
  · exact (advance _).bind fun _ => .pure _
  · exact (fail _).bind fun _ => .pure _

theorem atEnd (src : Source) : Steady src.atEnd :=
  (skip src).bind fun _ => (rest src).bind fun _ => .pure _

end Steady

namespace Recognizer

variable {r r' : Recognizer} {limit : Nat}

theorem Forward.ofScan {scan : Scan (Option (List Char))} (h : Steady scan) :
    (ofScan scan).Forward := by
  intro o next hnext
  rw [Recognizer.ofScan] at hnext
  split at hnext
  · next found c hok =>
    cases hnext
    exact h.forward { offset := o } _ c hok
  · cases hnext
  · cases hnext

theorem Forward.either (h : r.Forward) (h' : r'.Forward) : (r.either r').Forward := by
  intro o next hnext
  rw [Recognizer.either] at hnext
  split at hnext
  · exact h' o next hnext
  · exact h o next hnext

theorem Forward.both (h : r.Forward) (h' : r'.Forward) : (r.both r').Forward := by
  intro o next hnext
  rw [Recognizer.both] at hnext
  split at hnext
  · next mid hmid => exact Nat.le_trans (h o mid hmid) (h' mid next hnext)
  · exact h o next hnext

theorem Forward.maybe (h : r.Forward) : r.maybe.Forward := by
  intro o next hnext
  rw [Recognizer.maybe] at hnext
  split at hnext
  · cases hnext
    exact Nat.le_refl o
  · exact h o next hnext

theorem iterate_fault {o : Nat} {f : Fault} (h : r o = .error f) :
    r.iterate limit o = .error f := by
  rw [Recognizer.iterate, h]

/-- A repetition ends where nothing is found, -/
theorem iterate_missed {o : Nat} (h : r o = .ok none) : r.iterate limit o = .ok o := by
  rw [Recognizer.iterate, h]

/-- goes on from what gets on, -/
theorem iterate_moved {o next : Nat} (h : r o = .ok (some next))
    (hmoved : o < next ∧ next ≤ limit) : r.iterate limit o = r.iterate limit next := by
  rw [Recognizer.iterate, h]
  exact if_pos hmoved

/-- and ends with anything else. -/
theorem iterate_last {o next : Nat} (h : r o = .ok (some next))
    (hstop : ¬ (o < next ∧ next ≤ limit)) : r.iterate limit o = .ok next := by
  rw [Recognizer.iterate, h]
  exact if_neg hstop

/-- What holds at the end of a repetition, and is kept by the rounds before it, holds of the
    repetition. -/
theorem iterate_induction {motive : Nat → Nat → Prop}
    (missed : ∀ o, r o = .ok none → motive o o)
    (moved : ∀ o mid next, r o = .ok (some mid) → o < mid ∧ mid ≤ limit → motive mid next →
      motive o next)
    (last : ∀ o next, r o = .ok (some next) → ¬ (o < next ∧ next ≤ limit) → motive o next)
    (o : Nat) {next : Nat} (hnext : r.iterate limit o = .ok next) : motive o next := by
  induction o using iterate.induct limit r with
  | case1 o f hr =>
    rw [iterate_fault hr] at hnext
    contradiction
  | case2 o hr =>
    rw [iterate_missed hr] at hnext
    cases hnext
    exact missed _ hr
  | case3 o mid hr hmid ih =>
    rw [iterate_moved hr hmid] at hnext
    exact moved o mid next hr hmid (ih hnext)
  | case4 o mid hr hmid =>
    rw [iterate_last hr hmid] at hnext
    cases hnext
    exact last o next hr hmid

theorem Forward.iterate (h : r.Forward) (o : Nat) {next : Nat}
    (hnext : r.iterate limit o = .ok next) : o ≤ next :=
  iterate_induction (fun o _ => Nat.le_refl o)
    (fun o mid _ hr _ ih => Nat.le_trans (h o mid hr) ih) (fun o next hr _ => h o next hr) o hnext

theorem Forward.many (h : r.Forward) : (r.many limit).Forward := by
  intro o next hnext
  rw [Recognizer.many] at hnext
  cases hiter : r.iterate limit o with
  | error f => rw [hiter] at hnext; contradiction
  | ok last =>
    rw [hiter] at hnext
    cases hnext
    exact h.iterate o hiter

/-- Where a repetition has ended it ends at once. -/
theorem iterate_iterate (h : r.Forward) (o : Nat) {next : Nat}
    (hnext : r.iterate limit o = .ok next) (hlimit : next ≤ limit) :
    r.iterate limit next = .ok next := by
  refine iterate_induction (motive := fun _ next => next ≤ limit → r.iterate limit next = .ok next)
    (fun o hr _ => iterate_missed hr) (fun _ _ _ _ _ ih => ih) (fun o next hr hstop hlimit => ?_)
    o hnext hlimit
  -- the last round did not get on, so one more does not either
  have hsame : next = o := by
    have := h o next hr
    omega
  subst hsame
  exact iterate_last hr hstop

theorem many_many (h : r.Forward) : (r.many limit).many limit = r.many limit := by
  funext o
  simp only [many]
  refine congrArg (some <$> ·) ?_
  have hround : ∀ o, r.many limit o = some <$> r.iterate limit o := fun _ => rfl
  rw [Recognizer.iterate, hround]
  cases hiter : r.iterate limit o with
  | error f => rfl
  | ok next =>
    show (if o < next ∧ next ≤ limit then (r.many limit).iterate limit next else .ok next) = _
    split
    · next hnext =>
      rw [Recognizer.iterate, hround, iterate_iterate h o hiter hnext.2]
      exact if_neg fun hlt => Nat.lt_irrefl next hlt.1
    · rfl

theorem many_maybe : r.maybe.many limit = r.many limit := by
  funext o
  simp only [many]
  refine congrArg (some <$> ·) ?_
  induction o using iterate.induct limit r with
  | case1 o f hr => rw [Recognizer.iterate, Recognizer.iterate, maybe, hr]
  | case2 o hr =>
    rw [Recognizer.iterate, Recognizer.iterate, maybe, hr]
    exact if_neg fun hlt => Nat.lt_irrefl o hlt.1
  | case3 o next hr hnext ih =>
    rw [Recognizer.iterate, Recognizer.iterate, maybe, hr]
    simp only [if_pos hnext]
    exact ih
  | case4 o next hr hnext =>
    rw [Recognizer.iterate, Recognizer.iterate, maybe, hr]
    simp only [if_neg hnext]

theorem maybe_maybe : r.maybe.maybe = r.maybe := by
  funext o
  simp only [maybe]
  cases r o with
  | error f => rfl
  | ok next => cases next <;> rfl

theorem maybe_many : (r.many limit).maybe = r.many limit := by
  funext o
  simp only [maybe, many]
  cases r.iterate limit o <;> rfl

/-- Something as often as it is marked. -/
def marked (limit : Nat) (mods : Modifiers) (r : Recognizer) : Recognizer :=
  if mods.plural then r.many limit else if mods.optional then r.maybe else r

/-- Making something optional is marking it so. -/
theorem maybe_marked (mods : Modifiers) :
    (marked limit mods r).maybe = marked limit { mods with optional := true } r := by
  obtain ⟨optional, plural⟩ := mods
  cases plural with
  | true => exact maybe_many
  | false =>
    cases optional with
    | true => exact maybe_maybe
    | false => rfl

/-- Repeating something is marking it so. -/
theorem many_marked (h : r.Forward) (mods : Modifiers) :
    (marked limit mods r).many limit = marked limit { mods with plural := true } r := by
  obtain ⟨optional, plural⟩ := mods
  cases plural with
  | true => exact many_many h
  | false =>
    cases optional with
    | true => exact many_maybe
    | false => rfl

theorem Forward.marked (h : r.Forward) (mods : Modifiers) : (marked limit mods r).Forward := by
  unfold Recognizer.marked
  split
  · exact h.many
  · split
    · exact h.maybe
    · exact h

theorem forward_firstOf {rs : List Recognizer} (h : ∀ r ∈ rs, r.Forward) :
    (firstOf rs).Forward := by
  induction rs with
  | nil => exact fun o next hnext => by cases hnext
  | cons r rs ih =>
    exact (h r List.mem_cons_self).either (ih fun r' hr' => h r' (List.mem_cons_of_mem _ hr'))

theorem forward_allOf {rs : List Recognizer} (h : ∀ r ∈ rs, r.Forward) : (allOf rs).Forward := by
  induction rs with
  | nil =>
    intro o next hnext
    cases hnext
    exact Nat.le_refl o
  | cons r rs ih =>
    exact (h r List.mem_cons_self).both (ih fun r' hr' => h r' (List.mem_cons_of_mem _ hr'))

end Recognizer

/-! ## 4. Running plans -/

section

variable {src : Source} {find : String → Matcher} {rule : Name → Recognizer}

/-- Runs what a leaf reads. -/
def Symbol.recognize (src : Source) (find : String → Matcher) (rule : Name → Recognizer) :
    Symbol → Recognizer
  | .literal text _ => .ofScan (src.literal text)
  | .pattern source => .ofScan (src.pattern (find source) source)
  | .reference target => rule target

namespace Plan

mutual

/-- Runs a plan on a text. -/
def recognize (src : Source) (find : String → Matcher) (rule : Name → Recognizer) :
    Plan → Recognizer
  | leaf mods symbol _ => (symbol.recognize src find rule).marked src.size mods
  | node mods choice parts =>
    if choice then (Recognizer.firstOf (recognizeEach src find rule parts)).marked src.size mods
    else (Recognizer.allOf (recognizeEach src find rule parts)).marked src.size mods

/-- Runs several plans. -/
def recognizeEach (src : Source) (find : String → Matcher) (rule : Name → Recognizer) :
    List Plan → List Recognizer
  | [] => []
  | p :: ps => p.recognize src find rule :: recognizeEach src find rule ps

end

theorem recognizeEach_eq_map (ps : List Plan) :
    recognizeEach src find rule ps = ps.map (recognize src find rule) := by
  induction ps with
  | nil => rfl
  | cons p ps ih => rw [recognizeEach, List.map_cons, ih]

end Plan

theorem Symbol.forward_recognize (hrule : ∀ name, (rule name).Forward) (symbol : Symbol) :
    (symbol.recognize src find rule).Forward := by
  cases symbol with
  | literal text witness => exact .ofScan (.literal src text)
  | pattern source => exact .ofScan (.pattern src (find source) source)
  | reference target => exact hrule target

namespace Plan

/-- Running a plan never moves back if running a rule does not. -/
theorem forward_recognize (hrule : ∀ name, (rule name).Forward) (p : Plan) :
    (p.recognize src find rule).Forward := by
  induction p using Plan.induction with
  | leaf mods symbol slot => exact (symbol.forward_recognize hrule).marked mods
  | node mods choice parts ih =>
    have heach : ∀ r ∈ recognizeEach src find rule parts, r.Forward := by
      rw [recognizeEach_eq_map]
      intro r hr
      obtain ⟨p, hp, rfl⟩ := List.mem_map.1 hr
      exact ih p hp
    cases choice with
    | true => exact (Recognizer.forward_firstOf heach).marked mods
    | false => exact (Recognizer.forward_allOf heach).marked mods

/-- Other marks on the whole change how often the same is run. -/
theorem recognize_withMods (hrule : ∀ name, (rule name).Forward) (p : Plan) :
    ∃ r : Recognizer, r.Forward ∧ p.recognize src find rule = r.marked src.size p.mods ∧
      ∀ f, (p.withMods f).recognize src find rule = r.marked src.size (f p.mods) := by
  cases p with
  | leaf mods symbol slot =>
    exact ⟨symbol.recognize src find rule, symbol.forward_recognize hrule, rfl, fun _ => rfl⟩
  | node mods choice parts =>
    have heach : ∀ r ∈ recognizeEach src find rule parts, r.Forward := by
      rw [recognizeEach_eq_map]
      intro r hr
      obtain ⟨p, _, rfl⟩ := List.mem_map.1 hr
      exact forward_recognize hrule p
    cases choice with
    | true => exact ⟨_, Recognizer.forward_firstOf heach, rfl, fun _ => rfl⟩
    | false => exact ⟨_, Recognizer.forward_allOf heach, rfl, fun _ => rfl⟩

end Plan

/-- Running an expression never moves back if running a rule does not. -/
theorem Expr.forward_recognize (hrule : ∀ name, (rule name).Forward) (e : Expr) :
    (e.recognize src find rule).Forward := by
  induction e with
  | choice left right ihl ihr => exact ihl.either ihr
  | sequence left right ihl ihr => exact ihl.both ihr
  | optional inner ih => exact ih.maybe
  | repetition inner ih => exact ih.many
  | group inner ih => exact ih
  | reference label target => exact hrule target
  | literal label text => exact .ofScan (.literal src text)
  | pattern label source => exact .ofScan (.pattern src (find source) source)

/-- Running a rule never moves back. -/
theorem Grammar.forward_recognize (g : Grammar) (depth : Nat) (name : Name) :
    (g.recognize src find depth name).Forward := by
  induction depth generalizing name with
  | zero => exact fun o next hnext => by cases hnext
  | succ depth ih =>
    rw [Grammar.recognize]
    split
    · exact fun o next hnext => by cases hnext
    · exact Expr.forward_recognize ih _

/-- The parts of a chain are run as their plans are. -/
theorem Expr.recognizeEach_map_plan [Unicode.Xid] {entity : Name} {place : Build.Place}
    {es : List Expr}
    (h : ∀ e ∈ es, ∀ place,
      (e.plan entity place).recognize src find rule = e.recognize src find rule) :
    Plan.recognizeEach src find rule (es.map (Expr.plan entity place)) =
      es.map (Expr.recognize src find rule) := by
  rw [Plan.recognizeEach_eq_map, List.map_map]
  exact List.map_congr_left fun e he => h e he place

/-- The plan of an expression describes the same texts, whatever labels it has. -/
theorem Expr.recognize_eq_plan [Unicode.Xid] (hrule : ∀ name, (rule name).Forward) (entity : Name)
    (e : Expr) :
    ∀ place, (e.plan entity place).recognize src find rule = e.recognize src find rule := by
  induction e using Expr.chainInduction with
  | choice left right ih =>
    intro place
    rw [Expr.plan_choice, Plan.recognize, if_pos rfl, Expr.recognizeEach_map_plan ih,
      ← Expr.recognize_choice]
    rfl
  | sequence left right ih =>
    intro place
    rw [Expr.plan_sequence, Plan.recognize, if_neg Bool.false_ne_true,
      Expr.recognizeEach_map_plan ih, ← Expr.recognize_sequence]
    rfl
  | optional inner ih =>
    intro place
    obtain ⟨r, _, hr, hmods⟩ := Plan.recognize_withMods hrule (inner.plan entity place.branch)
    rw [Expr.plan, hmods, ← Recognizer.maybe_marked, ← hr, ih, Expr.recognize]
  | repetition inner ih =>
    intro place
    obtain ⟨r, hforward, hr, hmods⟩ :=
      Plan.recognize_withMods hrule (inner.plan entity place.nested)
    rw [Expr.plan, hmods, ← Recognizer.many_marked hforward, ← hr, ih, Expr.recognize]
  | group inner ih =>
    intro place
    rw [Expr.plan, ih, Expr.recognize]
  | reference label target => intro place; rw [Expr.plan]; rfl
  | literal label text => intro place; rw [Expr.plan]; rfl
  | pattern label source => intro place; rw [Expr.plan]; rfl

end

end Ebnf
