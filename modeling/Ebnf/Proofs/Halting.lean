import Ebnf.Proofs.LeadingSpace
import Ebnf.Proofs.Machine

/-!
# Reading always ends

The machine that reads a text step by step comes to what a run comes to. A run ends by its
definition: what entities refer to is read at a smaller depth, the parts of an instruction are
smaller than it is, and each round of a repetition but the last leaves less of the text. So the
machine ends as well, though it knows of no such measure.

* `Machine.Reaches.bind`: one run after another;
* `Machine.Attempts.rounds`, `Machine.Attempts.follows`: repetitions and options, given what they
  repeat;
* `Op.attempts`: instructions, by their form;
* `Program.enters`: entities, by the depth that is left;
* `reading_ends`: whole texts.
-/

namespace Ebnf

open Machine

variable {p : Program} {src : Source} {frames : List Frame} {s : RunState}

/-! ## 1. Steps -/

namespace Machine

/-- One run after another. -/
theorem Reaches.bind {α β : Type} {k : Machine} {above : List Frame} {answer : α → Control}
    {answer' : β → Control} {step : Run α} {next : α → Run β}
    (h : Reaches p src k (after above answer (step s)))
    (hnext : ∀ a t, Reaches p src k ⟨answer a, above, t⟩ →
      Reaches p src ⟨answer a, above, t⟩ (after frames answer' (next a t))) :
    Reaches p src k (after frames answer' ((step >>= next) s)) := by
  rw [bind_apply]
  cases hstep : step s with
  | error f t =>
    rw [hstep] at h
    exact h
  | ok a t =>
    rw [hstep] at h
    exact h.trans (hnext a t h)

end Machine

/-! ## 2. Repetition and options -/

section

variable {depth : Nat} {op : Op} {step : Run (Option Assignments)}

/-- The machine does once what a step does. -/
def Machine.Attempts (p : Program) (src : Source) (depth : Nat) (op : Op)
    (step : Run (Option Assignments)) : Prop :=
  ∀ frames s, Sound p src ⟨.attempt depth op, frames, s⟩ →
    Reaches p src ⟨.attempt depth op, frames, s⟩ (after frames .gave (step s))

/-- A round that is over has not moved the cursor back, nor out of the text. -/
theorem Machine.Sound.of_round {found : Option Assignments} {origin start count : Nat}
    {out : Assignments}
    (h : Sound p src ⟨.gave found, .round depth op origin start count out :: frames, s⟩) :
    start ≤ s.cursor.offset ∧ s.cursor.offset ≤ src.size := by
  cases h with
  | running hwithin hstacked _ =>
    cases hstacked with
    | round _ _ _ hstart _ => exact ⟨hstart, hwithin⟩

/-- The rounds from the one at hand on. -/
theorem Machine.Attempts.rounds (hmodest : p.Modest src) (h : Attempts p src depth op step)
    (s : RunState) : ∀ {origin count : Nat} {out : Assignments},
      Sound p src
        ⟨.attempt depth op, .round depth op origin s.cursor.offset count out :: frames, s⟩ →
      Reaches p src
        ⟨.attempt depth op, .round depth op origin s.cursor.offset count out :: frames, s⟩
        (after frames (fun more => .gave (some (out ++ more))) (repeated src.size step s)) := by
  have hnext : ∀ {s t : RunState} {origin count : Nat} {out first : Assignments},
      Reaches p src
        ⟨.attempt depth op, .round depth op origin s.cursor.offset count out :: frames, s⟩
        ⟨.gave (some first), .round depth op origin s.cursor.offset count out :: frames, t⟩ →
      s.cursor.offset < t.cursor.offset → Reaches p src
        ⟨.attempt depth op, .round depth op origin s.cursor.offset count out :: frames, s⟩
        ⟨.attempt depth op, .round depth op origin t.cursor.offset (count + 1) (out ++ first) ::
          frames, t⟩ :=
    fun hround hmoved => hround.tail (if_neg (Nat.ne_of_gt hmoved))
  -- the cases of a round: a fault; a miss; one that moved the cursor, with the rounds after it
  -- ending well or in a fault; and one that did not move it
  induction s using repeated.induct src.size step with
  | case1 s f t hs =>
    intro origin count out hsound
    have hround := h _ s hsound
    rw [hs] at hround
    rw [Run.repeated_fault hs]
    exact hround
  | case2 s t hs =>
    intro origin count out hsound
    have hround := h _ s hsound
    rw [hs] at hround
    rw [Run.repeated_missed hs, after, List.append_nil]
    exact hround.tail rfl
  | case3 s first t hs hmoved more u hmore ih =>
    intro origin count out hsound
    have hround := h _ s hsound
    rw [hs] at hround
    have hmove := hnext hround hmoved.1
    have hrest := ih (hmove.sound hmodest hsound)
    rw [hmore, after, List.append_assoc] at hrest
    rw [Run.repeated_moved hs hmoved, hmore]
    exact hmove.trans hrest
  | case4 s first t hs hmoved f u hmore ih =>
    intro origin count out hsound
    have hround := h _ s hsound
    rw [hs] at hround
    have hmove := hnext hround hmoved.1
    have hrest := ih (hmove.sound hmodest hsound)
    rw [hmore] at hrest
    rw [Run.repeated_moved hs hmoved, hmore]
    exact hmove.trans hrest
  | case5 s first t hs hstop =>
    intro origin count out hsound
    have hround := h _ s hsound
    rw [hs] at hround
    -- a run stops outside the text as well, but the machine does not look for that: it never is
    -- there
    obtain ⟨hstart, hwithin⟩ := (hround.sound hmodest hsound).of_round
    have hstill : t.cursor.offset = s.cursor.offset := by omega
    rw [Run.repeated_last hs hstop]
    exact hround.tail (if_pos hstill)

/-- An instruction is followed as often as it is wanted. -/
theorem Machine.Attempts.follows (hmodest : p.Modest src) (h : Attempts p src depth op step)
    (hsound : Sound p src ⟨.follow depth op, frames, s⟩) :
    Reaches p src ⟨.follow depth op, frames, s⟩
      (after frames .gave (modified src.size op.mods step s)) := by
  cases hmods : op.mods.plural with
  | true =>
    have hfirst : (⟨.follow depth op, frames, s⟩ : Machine).step p src =
        some ⟨.attempt depth op,
          .round depth op s.cursor.offset s.cursor.offset 1 [] :: frames, s⟩ :=
      if_pos hmods
    have hrounds := h.rounds hmodest s (hsound.step hmodest hfirst)
    rw [Run.modified_plural step hmods]
    refine .head hfirst ?_
    cases hrepeated : repeated src.size step s with
    | error f t =>
      rw [hrepeated] at hrounds
      exact hrounds
    | ok out t =>
      rw [hrepeated] at hrounds
      exact hrounds
  | false =>
    have hfirst : (⟨.follow depth op, frames, s⟩ : Machine).step p src =
        some ⟨.attempt depth op, .single op.mods.optional s.cursor.offset :: frames, s⟩ :=
      if_neg (by rw [hmods]; exact Bool.false_ne_true)
    have honce := h _ s (hsound.step hmodest hfirst)
    rw [Run.modified_single step hmods]
    refine .head hfirst ?_
    cases hstep : step s with
    | error f t =>
      rw [hstep] at honce
      exact honce
    | ok found t =>
      rw [hstep] at honce
      cases found with
      | none => exact honce.tail rfl
      | some out => exact honce.tail rfl

end

/-! ## 3. Instructions -/

section

variable {depth fuel : Nat}

/-- The machine reads entities that are referred to as a run does. -/
def Machine.Enters (p : Program) (src : Source) (depth fuel : Nat) : Prop :=
  ∀ name frames s, Sound p src ⟨.call depth name, frames, s⟩ →
    Reaches p src ⟨.call depth name, frames, s⟩ (after frames .took (p.entity src fuel name s))

/-- A token is read in one go; what is referred to is read, and its value is sent on. -/
theorem Token.attempts (hmodest : p.Modest src) (h : Enters p src (depth + 1) fuel)
    (mods : Modifiers) (token : Token) (destination : Destination) :
    Attempts p src depth (.leaf mods token destination)
      (token.run src (p.inner src fuel) destination) := by
  intro frames s hsound
  cases token with
  | literal text witness => exact .single rfl
  | pattern shown find => exact .single rfl
  | entity target =>
    have hcall :
        (⟨.attempt depth (.leaf mods (.entity target) destination), frames, s⟩ :
          Machine).step p src =
            some ⟨.call (depth + 1) target, .reference destination :: frames, s⟩ := rfl
    have hread := h target _ s (hsound.step hmodest hcall)
    refine .head hcall ?_
    rw [Token.run, Program.inner, bind_assoc]
    refine hread.bind fun found t _ => ?_
    cases found with
    | none => exact .single rfl
    | some n =>
      refine .head rfl ?_
      simp only [bind_apply]
      cases p.nodeValue n t <;> exact .refl

/-- An instruction that is followed once as in a run is followed as in a run. -/
theorem Machine.Attempts.runs {op : Op} {inner : Name → Run (Option (Option Value))}
    (hmodest : p.Modest src) (h : Attempts p src depth op (op.once src inner))
    (hsound : Sound p src ⟨.follow depth op, frames, s⟩) :
    Reaches p src ⟨.follow depth op, frames, s⟩ (after frames .gave (op.run src inner s)) := by
  rw [op.run_eq_modified]
  exact h.follows hmodest hsound

mutual

/-- Every instruction is followed once as in a run. -/
theorem Op.attempts (hmodest : p.Modest src) (h : Enters p src (depth + 1) fuel) :
    ∀ op : Op, Attempts p src depth op (op.once src (p.inner src fuel))
  | .leaf mods token destination => token.attempts hmodest h mods destination
  | .all mods ops => by
    intro frames s hsound
    have hfirst : (⟨.attempt depth (.all mods ops), frames, s⟩ : Machine).step p src =
        some ⟨.gave (some []), .all depth ops [] :: frames, s⟩ := rfl
    have hrest := reaches_all hmodest h ops frames s [] [] (hsound.step hmodest hfirst)
    simp only [List.append_nil, List.nil_append, Option.map_id'] at hrest
    exact .head hfirst hrest
  | .any mods ops => by
    intro frames s hsound
    have hfirst : (⟨.attempt depth (.any mods ops), frames, s⟩ : Machine).step p src =
        some ⟨.gave none, .any depth ops :: frames, s⟩ := rfl
    exact .head hfirst (reaches_any hmodest h ops frames s (hsound.step hmodest hfirst))

/-- What is left of a sequence. -/
theorem reaches_all (hmodest : p.Modest src) (h : Enters p src (depth + 1) fuel) :
    ∀ (ops : List Op) (frames : List Frame) (s : RunState) (out more : Assignments),
    Sound p src ⟨.gave (some more), .all depth ops out :: frames, s⟩ →
    Reaches p src ⟨.gave (some more), .all depth ops out :: frames, s⟩
      (after frames (fun found => .gave (found.map (out ++ more ++ ·)))
        (runAll src (p.inner src fuel) ops s))
  | [], frames, s, out, more, hsound => by
    rw [runAll]
    have hgave : ∀ out : Assignments, out ++ [] = out := List.append_nil
    refine .single ?_
    show some (⟨.gave (some (out ++ more)), frames, s⟩ : Machine) =
      some ⟨.gave (some (out ++ more ++ [])), frames, s⟩
    rw [hgave]
  | op :: ops, frames, s, out, more, hsound => by
    have hfirst : (⟨.gave (some more), .all depth (op :: ops) out :: frames, s⟩ :
        Machine).step p src =
          some ⟨.follow depth op, .all depth ops (out ++ more) :: frames, s⟩ := rfl
    have hmid := hsound.step hmodest hfirst
    have hop := (op.attempts hmodest h).runs hmodest hmid
    rw [runAll]
    refine .head hfirst (hop.bind fun found t ht => ?_)
    cases found with
    | none => exact .single rfl
    | some a =>
      have hrest := reaches_all hmodest h ops frames t (out ++ more) a (ht.sound hmodest hmid)
      simp only [bind_apply]
      cases hmore : runAll src (p.inner src fuel) ops t with
      | error f u =>
        rw [hmore] at hrest
        exact hrest
      | ok rest u =>
        rw [hmore] at hrest
        cases rest with
        | none => exact hrest
        | some rest =>
          have hsame : out ++ more ++ (a ++ rest) = out ++ more ++ a ++ rest :=
            (List.append_assoc _ _ _).symm
          show Reaches p src _ ⟨.gave (some (out ++ more ++ (a ++ rest))), frames, u⟩
          rw [hsame]
          exact hrest

/-- What is left of a choice. -/
theorem reaches_any (hmodest : p.Modest src) (h : Enters p src (depth + 1) fuel) :
    ∀ (ops : List Op) (frames : List Frame) (s : RunState),
    Sound p src ⟨.gave none, .any depth ops :: frames, s⟩ →
    Reaches p src ⟨.gave none, .any depth ops :: frames, s⟩
      (after frames .gave (runAny src (p.inner src fuel) ops s))
  | [], frames, s, hsound => by
    rw [runAny]
    exact .single rfl
  | op :: ops, frames, s, hsound => by
    have hfirst : (⟨.gave none, .any depth (op :: ops) :: frames, s⟩ : Machine).step p src =
        some ⟨.follow depth op, .any depth ops :: frames, s⟩ := rfl
    have hmid := hsound.step hmodest hfirst
    have hop := (op.attempts hmodest h).runs hmodest hmid
    rw [runAny]
    refine .head hfirst (hop.bind fun found t ht => ?_)
    cases found with
    | some out => exact .single rfl
    | none => exact reaches_any hmodest h ops frames t (ht.sound hmodest hmid)

end

end

/-! ## 4. Entities -/

/-- Every entity is read as in a run: what it refers to is read where less of the depth is left. -/
theorem Program.enters (hmodest : p.Modest src) (fuel : Nat) :
    ∀ depth, fuel + depth = p.maxDepth + 1 → Enters p src depth fuel := by
  induction fuel with
  | zero =>
    intro depth hdepth name frames s _
    exact .single (congrArg some (if_pos (by omega)))
  | succ fuel ih =>
    intro depth hdepth name frames s hsound
    have hentered : (⟨.call depth name, frames, s⟩ : Machine).step p src =
        some (enter p depth name frames s) := rfl
    have hshallow : ¬ p.maxDepth < depth := by omega
    have henter := hsound.step hmodest hentered
    rw [enter, if_neg hshallow] at hentered henter
    refine .head hentered ?_
    rw [Program.entity]
    cases hproc : p.procedure? name with
    | none => exact .refl
    | some proc =>
      rw [hproc] at henter
      obtain ⟨body, fields, isVirtual⟩ := proc
      cases body with
      | none => exact .refl
      | some body =>
        cases body with
        | error f => exact .refl
        | ok op =>
          have hinner : Enters p src (depth + 1) fuel := ih (depth + 1) (by omega)
          have hop := (op.attempts hmodest hinner).runs hmodest henter
          refine hop.bind fun found t _ => ?_
          cases found with
          | none => exact .single rfl
          | some out => cases fields <;> exact .single rfl

/-! ## 5. Whole texts -/

/-- A text is read by reading the root and seeing whether anything is left. -/
theorem Program.readSource_eq_conclude (p : Program) (src : Source) :
    p.readSource src = p.entity src (p.maxDepth + 1) p.root >>= p.conclude src := by
  funext s
  rw [readSource, bind_apply, bind_apply]
  cases p.entity src (p.maxDepth + 1) p.root s with
  | error f t => rfl
  | ok found t => cases found <;> rfl

/-- The machine comes to an end, and to the one that a run comes to. -/
theorem Program.reaches_read (p : Program) (text : String)
    (hmodest : p.Modest (p.source text)) :
    ∃ last, Reaches p (p.source text) (start p) last ∧ last.result? = some (p.read text) := by
  have hroot := p.enters hmodest (p.maxDepth + 1) 0 rfl p.root [.text] {} (.start p _)
  have hrun : Reaches p (p.source text) (start p)
      (after [] .done (p.readSource (p.source text) {})) := by
    rw [readSource_eq_conclude]
    exact Reaches.bind hroot fun found t _ => by cases found <;> exact .single rfl
  have hread : p.read text = outcome (p.readSource (p.source text) {}) := by
    unfold Program.read Program.readTracing EStateM.run
    show _ = outcome (p.readSource { text := text.toList, ignore := p.ignore } {})
    cases p.readSource { text := text.toList, ignore := p.ignore } {} <;> rfl
  refine ⟨_, hrun, ?_⟩
  rw [hread]
  cases p.readSource (p.source text) {} <;> rfl

/-! ## 6. Programs of models -/

section

variable {g : Grammar} {engine : Engine} {m : Model} {config : ReadConfig} {patterns : Patterns}

namespace Plan

variable {entity : Name} {link : ActionId → Option PropertyId} {dest : Nat → Destination}

mutual

/-- The patterns in a plan find what stands in the text. -/
theorem Stands.modest (hengine : engine.Sound) (hpatterns : Understood m patterns engine)
    {a q : Nat} {parent : Option ActionId} :
    ∀ {p : Plan}, p.Stands m entity link a q parent → (p.op patterns dest q).Modest
  | leaf mods symbol slot, ⟨htop, _⟩ => by
    rw [op]
    refine .leaf fun shown find htoken => ?_
    cases symbol with
    | literal text witness => cases htoken
    | reference target => cases htoken
    | pattern source =>
      rw [Symbol.token, hpatterns a _ source htop rfl] at htoken
      cases htoken
      exact (hengine.find shown).modest
  | node mods choice parts, ⟨hparts, _⟩ => by
    cases choice with
    | true => exact .any (hparts.modest hengine hpatterns)
    | false => exact .all (hparts.modest hengine hpatterns)

theorem StandInRow.modest (hengine : engine.Sound) (hpatterns : Understood m patterns engine)
    {a q : Nat} {parent : Option ActionId} :
    ∀ {ps : List Plan}, StandInRow m entity link a q parent ps →
      ∀ op ∈ opsOf patterns dest q ps, op.Modest
  | [], _ => fun op hop => absurd hop List.not_mem_nil
  | p :: ps, ⟨hp, hps⟩ => by
    intro op hop
    rw [opsOf] at hop
    rcases List.mem_cons.1 hop with rfl | hop
    · exact hp.modest hengine hpatterns
    · exact hps.modest hengine hpatterns op hop

end

end Plan

/-- Each entity of a model has its instruction, the patterns of which find what stands in the
    text. -/
theorem Program.Made.exists_body [Unicode.Xid] (hmade : p.Made engine m config patterns)
    (hreached : Build.Reached g m True) (hengine : engine.Sound) {name : Name} {proc : Procedure}
    (hproc : p.procedure? name = some proc) : ∃ op, proc.body = some (.ok op) ∧ op.Modest := by
  obtain ⟨site, hsited⟩ := hreached.bodies trivial
  have he := hproc
  rw [hmade.procedure?_eq, Option.map_eq_some_iff] at he
  obtain ⟨e, he, _⟩ := he
  obtain ⟨proc', r, fields, hproc', hof⟩ := hmade.procedure_some hreached hsited he
  obtain rfl := Option.some.inj (hproc.symm.trans hproc')
  exact ⟨_, hof.body, hof.hosts.stands.modest hengine hmade.patterns⟩

theorem Program.Made.modest [Unicode.Xid] (hmade : p.Made engine m config patterns)
    (hreached : Build.Reached g m True) (hengine : engine.Sound) (text : String) :
    p.Modest (p.source text) where
  ignore := by
    intro find hfind
    have hsource : p.source text = config.source engine text := hmade.source_eq text
    exact (ReadConfig.passes_source hengine text find (hsource ▸ hfind)).modest
  body := by
    intro name proc op hproc hbody
    obtain ⟨op', hop, hmodest⟩ := hmade.exists_body hreached hengine hproc
    obtain rfl := Except.ok.inj (Option.some.inj (hbody.symm.trans hop))
    exact hmodest

/-- Reading always ends, whatever rules refer to and repeat, if only in a fault where a text is too
    long for its offsets. Each entity of a built model has its instruction, the parts of which lead
    back to no other. After some number of steps the machine comes to an end, and to the one that a
    run comes to. At no time are more entities nested than the limit on the depth allows, and two;
    and no repetition has more than one round for each byte that was left where it was begun, and
    one. -/
theorem reading_ends [Unicode.Xid] {n : Nat} (hmodel : Model.ofGrammar g = .ok m)
    (hprogram : Program.ofModel engine m config = .ok (p, n)) (hengine : engine.Sound)
    (text : String) :
    (∀ name proc, p.procedure? name = some proc → ∃ op, proc.body = some (.ok op)) ∧
    (∃ steps, ((Machine.start p).run p (p.source text) steps).result? = some (p.read text)) ∧
    ∀ steps, ((Machine.start p).run p (p.source text) steps).calls ≤ config.maxDepth + 2 ∧
      ∀ depth op origin start count out, .round depth op origin start count out ∈
          ((Machine.start p).run p (p.source text) steps).frames →
        count ≤ Text.byteLength text.toList - origin + 1 := by
  have hreached := (Build.reached_ofGrammar hmodel).1
  obtain ⟨patterns, hmade⟩ := Program.made_of_ofModel hprogram
  have hmodest := hmade.modest hreached hengine text
  refine ⟨fun name proc hproc => ?_, ?_, fun steps => ?_⟩
  · obtain ⟨op, hop, _⟩ := hmade.exists_body hreached hengine hproc
    exact ⟨op, hop⟩
  · obtain ⟨last, hlast, hresult⟩ := p.reaches_read text hmodest
    obtain ⟨steps, rfl⟩ := hlast.exists_run
    exact ⟨steps, hresult⟩
  · have hsound := (reaches_run p _ steps (.start p)).sound hmodest (.start p _)
    refine ⟨hmade.maxDepth ▸ hsound.calls_le, fun depth op origin start count out hmem => ?_⟩
    exact hsound.count_le hmem

end

namespace Loop

/-- Letters, each of which may be missing, any number of times, and then the same again. -/
def grammar : Grammar where
  rules := [
    { name := "loop",
      body := .sequence
        (.repetition (.sequence (.optional (.literal (some "_") "a"))
          (.optional (.literal (some "_") "b"))))
        (.reference none "loop") }]

def loop : Entity where
  name := "loop"
  rule := grammar.rule? "loop"
  properties := [("loop", ⟨0⟩)]
  action := some ⟨4⟩

/-- The model of the loop. -/
def model : Model where
  entities := [loop]
  properties := #[{ name := "loop", entity := "loop", source := ⟨3⟩ }]
  actions := #[
    { kind := .literal "a", isOptional := true, parent := some ⟨2⟩ },
    { kind := .literal "b", isOptional := true, parent := some ⟨2⟩ },
    { kind := .all [⟨0⟩, ⟨1⟩], isPlural := true, parent := some ⟨4⟩ },
    { kind := .entity "loop", property := some ⟨0⟩, parent := some ⟨4⟩ },
    { kind := .all [⟨2⟩, ⟨3⟩] }]
  root := some "loop"

/-- Two entities may be nested, and nothing is passed over. -/
def config : ReadConfig where
  ignore := none
  maxDepth := 1

/-- The program of the loop. -/
def program : Program where
  root := "loop"
  ignore := none
  maxDepth := 1
  procedures := model.entities.map fun e => (e.name, Procedure.ofModel model [] e)

theorem walk_eq (events : Array Event) (attached : List (Name × PropertyId)) :
    Build.walk ["loop"] [] ["loop"] { model, events, attached } =
      .ok () { model, events := events.push (.subSkipped "loop" "loop"), attached } := by
  have hloop : Build.discover loop { model, events, attached } =
      .ok ["loop"] { model, events := events.push (.subSkipped "loop" "loop"), attached } := by
    cbv
  rw [Build.walk_cons (by decide) rfl hloop, List.append_nil, Build.walk_pass (by decide),
    Build.walk]
  rfl

theorem ofGrammar_eq : Model.ofGrammar grammar = .ok model :=
  Build.ofGrammar_of_walk (m := model) (by cbv) rfl
    fun events attached => ⟨_, _, walk_eq events attached⟩

theorem ofModel_eq : Program.ofModel Indented.engine model config = .ok (program, 0) :=
  rfl

theorem read_eq : program.read "ba" = .ok (.error (.depthLimit "loop" 1)) := by
  decide +kernel

/-- The machine after some steps of reading two letters. -/
def after (steps : Nat) : Machine :=
  (Machine.start program).run program (program.source "ba") steps

/-- The machine calls for a third loop in the second one, and is not given it. -/
theorem calls_eq : (after 60).calls = 3 := by
  decide +kernel

/-- Where the repetitions at hand were begun, and the numbers of their rounds. -/
def rounds (k : Machine) : List (Nat × Nat) :=
  k.frames.filterMap fun
    | .round _ _ origin _ count _ => some (origin, count)
    | _ => none

/-- The first repetition is in its third round, after one for each of the letters. -/
theorem rounds_eq : rounds (after 27) = [(0, 3)] := by
  decide +kernel

theorem mem_frames : ∃ depth op start out, .round depth op 0 start 3 out ∈ (after 27).frames := by
  have hmem : (0, 3) ∈ rounds (after 27) := rounds_eq ▸ List.mem_singleton_self _
  obtain ⟨frame, hframe, hround⟩ := List.mem_filterMap.1 hmem
  cases frame with
  | round depth op origin start count out =>
    obtain ⟨rfl, rfl⟩ := Prod.mk.inj (Option.some.inj hround)
    exact ⟨depth, op, start, out, hframe⟩
  | _ => contradiction

end Loop

/-- The loop calls for itself behind a repetition of letters that may be missing. Three calls are
    nested, and none comes on top of them; the first repetition has a round for each letter and one
    in which none is found, and none has more; and the text is refused in the end. -/
theorem reading_ends_loop :
    Model.ofGrammar Loop.grammar = .ok Loop.model ∧
    Program.ofModel Indented.engine Loop.model Loop.config = .ok (Loop.program, 0) ∧
    Indented.engine.Sound ∧
    (∃ steps, (Loop.after steps).result? = some (.ok (.error (.depthLimit "loop" 1)))) ∧
    (Loop.after 60).calls = 3 ∧
    (∃ depth op start out, .round depth op 0 start 3 out ∈ (Loop.after 27).frames) ∧
    ∀ steps, (Loop.after steps).calls ≤ 3 ∧
      ∀ depth op origin start count out, .round depth op origin start count out ∈
          (Loop.after steps).frames → count ≤ 3 := by
  obtain ⟨_, hends, hbounds⟩ :=
    reading_ends Loop.ofGrammar_eq Loop.ofModel_eq Indented.sound "ba"
  rw [Loop.read_eq] at hends
  refine ⟨Loop.ofGrammar_eq, Loop.ofModel_eq, Indented.sound, hends, Loop.calls_eq,
    Loop.mem_frames, fun steps => ?_⟩
  obtain ⟨hcalls, hrounds⟩ := hbounds steps
  refine ⟨hcalls, fun depth op origin start count out hmem => ?_⟩
  have hcount : count ≤ 2 - origin + 1 := hrounds depth op origin start count out hmem
  omega

end Ebnf
