import Ebnf.Proofs.Backtracking

/-!
# The limit on the depth

An entity that lies too deep fails like any other, so a run that meets the limit may go on and find
something else than a run that was allowed to go deeper. It tells of the entity, though, and never
forgets that. A run that has told of none is the same under every larger limit.

* `RunState.Shallow`: no entity has been too deep so far;
* `Run.Quiet`: steps that have nothing to do with the limit;
* `Run.Deepens`: a step that meets no limit does what another one does;
* `Program.deepens_entity`: reading an entity does what it does where it may go deeper;
* `Program.frank_entity`: a run keeps an entity in mind just where it has told of one;
* `read_of_deeper`: a larger limit makes no difference to a text that is read without meeting the
  limit, or refused for another reason.
-/

namespace Ebnf

variable {α β : Type}

/-! ## 1. Steps that meet no limit -/

/-- No entity has been too deep to be looked for. -/
def RunState.Shallow (s : RunState) : Prop :=
  ∀ name, Event.tooDeep name ∉ s.events

namespace Run

/-- The state that a step ends in, be it with a fault. -/
def final : EStateM.Result Fault RunState α → RunState
  | .ok _ t => t
  | .error _ t => t

/-- A step that tells of nothing, and keeps no entity in mind. -/
def Quiet (step : Run α) : Prop :=
  ∀ s, (final (step s)).events = s.events ∧ (final (step s)).overflow = s.overflow

namespace Quiet

theorem pure (a : α) : Quiet (Pure.pure a : Run α) :=
  fun _ => ⟨rfl, rfl⟩

theorem offset : Quiet Run.offset :=
  fun _ => ⟨rfl, rfl⟩

theorem check (x : Checked α) : Quiet (Run.check x) := by
  cases x <;> exact fun _ => ⟨rfl, rfl⟩

theorem scan (scan : Scan α) : Quiet (Run.scan scan) := by
  intro s
  rw [Run.scan]
  cases scan s.cursor <;> exact ⟨rfl, rfl⟩

theorem bind {step : Run α} (h : Quiet step) {next : α → Run β} (hnext : ∀ a, Quiet (next a)) :
    Quiet (step >>= next) := by
  intro s
  have hs := h s
  rw [bind_apply]
  cases hstep : step s with
  | error f t => rw [hstep] at hs; exact hs
  | ok a t =>
    rw [hstep] at hs
    have ht := hnext a t
    exact ⟨ht.1.trans hs.1, ht.2.trans hs.2⟩

end Quiet

/-- A step that ends without having met the limit has not met it before either, and does what
    another step does. -/
def Deepens (step step' : Run α) : Prop :=
  ∀ s, (final (step s)).Shallow → s.Shallow ∧ step' s = step s

theorem Quiet.deepens {step : Run α} (h : Quiet step) : Deepens step step := by
  intro s hs
  rw [RunState.Shallow, (h s).1] at hs
  exact ⟨hs, rfl⟩

namespace Deepens

variable {step step' : Run α}

theorem pure (a : α) : Deepens (Pure.pure a : Run α) (Pure.pure a) :=
  (Quiet.pure a).deepens

/-- Telling that an entity is looked for does not tell of a limit. -/
theorem tell_entityTried (name : Name) (offset : Nat) :
    Deepens (Run.tell (.entityTried name offset)) (Run.tell (.entityTried name offset)) := by
  intro s hs
  refine ⟨fun deep hdeep => hs deep ?_, rfl⟩
  exact Array.mem_push.2 (.inl hdeep)

theorem bind (h : Deepens step step') {next next' : α → Run β}
    (hnext : ∀ a, Deepens (next a) (next' a)) : Deepens (step >>= next) (step' >>= next') := by
  intro s hend
  rw [bind_apply] at hend
  rw [bind_apply, bind_apply]
  cases hstep : step s with
  | error f t =>
    rw [hstep] at hend
    obtain ⟨hs, hsame⟩ := h s (by rw [hstep]; exact hend)
    exact ⟨hs, by rw [hsame, hstep]⟩
  | ok a t =>
    rw [hstep] at hend
    -- the rest of the run has met no limit, so neither has the first step
    obtain ⟨ht, hrest⟩ := hnext a t hend
    obtain ⟨hs, hsame⟩ := h s (by rw [hstep]; exact ht)
    exact ⟨hs, by rw [hsame, hstep]; exact hrest⟩

/-- What only goes on with something that was found. -/
theorem found {step step' : Run (Option α)} (h : Deepens step step')
    {next next' : Option α → Run (Option β)} (hnone : next none = Pure.pure none)
    (hnone' : next' none = Pure.pure none)
    (hsome : ∀ a, Deepens (next (some a)) (next' (some a))) :
    Deepens (step >>= next) (step' >>= next') := by
  refine h.bind fun a => ?_
  cases a with
  | none => rw [hnone, hnone']; exact .pure none
  | some a => exact hsome a

variable {step step' : Run (Option Assignments)}

theorem repeated (h : Deepens step step') (limit : Nat) :
    Deepens (Ebnf.repeated limit step) (Ebnf.repeated limit step') := by
  intro s hend
  induction s using repeated.induct limit step with
  | case1 s f t hrun =>
    rw [repeated_fault hrun] at hend ⊢
    obtain ⟨hs, hsame⟩ := h s (by rw [hrun]; exact hend)
    exact ⟨hs, repeated_fault (hsame.trans hrun)⟩
  | case2 s t hrun =>
    rw [repeated_missed hrun] at hend ⊢
    obtain ⟨hs, hsame⟩ := h s (by rw [hrun]; exact hend)
    exact ⟨hs, repeated_missed (hsame.trans hrun)⟩
  | case3 s out t hrun hmoved more u hmore ih =>
    rw [repeated_moved hrun hmoved, hmore] at hend
    obtain ⟨ht, hrounds⟩ := ih (by rw [hmore]; exact hend)
    obtain ⟨hs, hsame⟩ := h s (by rw [hrun]; exact ht)
    refine ⟨hs, ?_⟩
    rw [repeated_moved hrun hmoved, repeated_moved (hsame.trans hrun) hmoved, hrounds]
  | case4 s out t hrun hmoved f u hmore ih =>
    rw [repeated_moved hrun hmoved, hmore] at hend
    obtain ⟨ht, hrounds⟩ := ih (by rw [hmore]; exact hend)
    obtain ⟨hs, hsame⟩ := h s (by rw [hrun]; exact ht)
    refine ⟨hs, ?_⟩
    rw [repeated_moved hrun hmoved, repeated_moved (hsame.trans hrun) hmoved, hrounds]
  | case5 s out t hrun hstop =>
    rw [repeated_last hrun hstop] at hend ⊢
    obtain ⟨hs, hsame⟩ := h s (by rw [hrun]; exact hend)
    exact ⟨hs, repeated_last (hsame.trans hrun) hstop⟩

theorem modified (h : Deepens step step') (limit : Nat) (mods : Modifiers) :
    Deepens (Ebnf.modified limit mods step) (Ebnf.modified limit mods step') := by
  cases hmods : mods.plural with
  | true =>
    intro s hend
    rw [modified_plural step hmods] at hend
    have hrounds := h.repeated limit s (by
      cases hrun : Ebnf.repeated limit step s <;> rw [hrun] at hend <;> exact hend)
    exact ⟨hrounds.1, by rw [modified_plural step hmods, modified_plural step' hmods, hrounds.2]⟩
  | false =>
    intro s hend
    rw [modified_single step hmods] at hend
    have honce := h s (by
      cases hrun : step s with
      | error f t => rw [hrun] at hend; exact hend
      | ok out t => rw [hrun] at hend; cases out <;> exact hend)
    exact ⟨honce.1, by rw [modified_single step hmods, modified_single step' hmods, honce.2]⟩

end Deepens

end Run

/-! ## 2. Instructions -/

section

variable {src : Source} {inner inner' : Name → Run (Option (Option Value))}

/-- Reading a token goes deeper only where an entity is read. -/
theorem Token.deepens (hinner : ∀ target, Run.Deepens (inner target) (inner' target))
    (token : Token) (destination : Destination) :
    Run.Deepens (token.run src inner destination) (token.run src inner' destination) := by
  cases token with
  | literal text witness => exact (Run.Quiet.scan _).deepens.found rfl rfl fun _ => .pure _
  | pattern shown find => exact (Run.Quiet.scan _).deepens.found rfl rfl fun _ => .pure _
  | entity target => exact (hinner target).found rfl rfl fun _ => .pure _

/-- Following an instruction goes deeper only where an entity is read. -/
theorem Op.deepens (hinner : ∀ target, Run.Deepens (inner target) (inner' target)) (op : Op) :
    Run.Deepens (op.run src inner) (op.run src inner') := by
  have hcarries : Op.Carries src.size src.size Run.Deepens := {
    found := .pure _
    missed := .pure _
    both := fun h hnext => h.found rfl rfl fun _ => hnext.found rfl rfl fun _ => .pure _
    either := fun h hnext => h.bind fun found => by
      cases found with
      | none => exact hnext
      | some out => exact .pure _
    modified := fun mods _ _ h => h.modified src.size mods }
  exact op.carries hcarries fun token destination => token.deepens hinner destination

end

/-! ## 3. Entities -/

/-- A run keeps an entity in mind just where it has told of one that was too deep. -/
def RunState.Frank (s : RunState) : Prop :=
  s.overflow = none ↔ s.Shallow

/-- A run that has not begun has told of nothing. -/
theorem RunState.frank_empty : RunState.Frank {} :=
  ⟨fun _ name hname => by simp at hname, fun _ => rfl⟩

namespace Run

theorem Quiet.frank {step : Run α} (h : Quiet step) :
    Keeps RunState.Frank (fun _ => True) step := by
  intro s hs
  have hquiet := h s
  cases hstep : step s with
  | error f t => trivial
  | ok a t =>
    rw [hstep] at hquiet
    show t.overflow = none ↔ t.Shallow
    rw [RunState.Shallow, show t.events = s.events from hquiet.1,
      show t.overflow = s.overflow from hquiet.2]
    exact hs

end Run

namespace Program

variable {p p' : Program} {src : Source}

/-- Asking what a node stands for has nothing to do with the limit. -/
theorem quiet_nodeValue (n : Node) : Run.Quiet (p.nodeValue n) := by
  unfold nodeValue
  cases p.procedure? n.entity with
  | none => exact (Run.Quiet.pure false).bind fun _ => .pure _
  | some procedure => exact (Run.Quiet.check _).bind fun _ => .pure _

/-- Reading an entity that another one refers to is the same where reading the entity is. -/
theorem deepens_inner (hsame : p'.procedures = p.procedures) {depth depth' : Nat} {target : Name}
    (h : Run.Deepens (p.entity src depth target) (p'.entity src depth' target)) :
    Run.Deepens (p.inner src depth target) (p'.inner src depth' target) := by
  refine h.found rfl rfl fun n => ?_
  have hvalue : p'.nodeValue n = p.nodeValue n := by
    unfold nodeValue procedure?
    rw [hsame]
  show Run.Deepens (p.nodeValue n >>= _) (p'.nodeValue n >>= _)
  rw [hvalue]
  exact (quiet_nodeValue n).deepens.bind fun _ => .pure _

/-- Reading an entity without meeting the limit is the same where entities may be nested deeper. -/
theorem deepens_entity (hsame : p'.procedures = p.procedures) {depth depth' : Nat}
    (hdepth : depth ≤ depth') :
    ∀ name, Run.Deepens (p.entity src depth name) (p'.entity src depth' name) := by
  induction depth generalizing depth' with
  | zero =>
    intro name s hs
    exact absurd (Array.mem_push.2 (.inr rfl)) (hs name)
  | succ depth ih =>
    cases depth' with
    | zero => omega
    | succ depth' =>
      intro name
      have hinner : ∀ target, Run.Deepens (p.inner src depth target) (p'.inner src depth' target) :=
        fun target => deepens_inner hsame (ih (by omega) target)
      unfold entity procedure?
      rw [hsame]
      cases p.procedures.lookup name with
      | none => exact .pure none
      | some procedure =>
        obtain ⟨body, fields, _⟩ := procedure
        cases body with
        | none => exact .pure none
        | some body =>
          refine Run.Quiet.offset.deepens.bind fun o => ?_
          refine (Run.Deepens.tell_entityTried name o).bind fun _ => ?_
          refine (Run.Quiet.check body).deepens.bind fun op => ?_
          refine (op.deepens hinner).found rfl rfl fun out => ?_
          exact (Run.Quiet.check fields).deepens.bind fun _ => .pure _

/-- Reading an entity keeps in mind that one was too deep just where it tells of one. -/
theorem frank_entity (depth : Nat) :
    ∀ name, Run.Keeps RunState.Frank (fun _ => True) (p.entity src depth name) := by
  induction depth with
  | zero =>
    intro name s _
    have htold : ¬ ∀ deep, Event.tooDeep deep ∉ s.events.push (.tooDeep name) := fun h =>
      h name (Array.mem_push.2 (.inr rfl))
    have hkept : s.overflow.or (some name) ≠ none := by simp
    exact iff_of_false hkept htold
  | succ depth ih =>
    intro name
    have hinner : ∀ target, Run.Keeps RunState.Frank (fun _ => True) (p.inner src depth target) :=
      fun target => (ih target).found rfl fun n => (quiet_nodeValue n).frank.bind fun _ => .pure _
    unfold entity
    cases p.procedure? name with
    | none => exact .pure none
    | some procedure =>
      obtain ⟨body, fields, _⟩ := procedure
      cases body with
      | none => exact .pure none
      | some body =>
        refine Run.Quiet.offset.frank.bind fun o => .bind (fun s hs => ?_) fun _ =>
          (Run.Quiet.check body).frank.bind fun op => ?_
        · have htold : s.Shallow ↔ RunState.Shallow
              { s with events := s.events.push (.entityTried name o) } := by
            simp [RunState.Shallow]
          exact Iff.trans hs htold
        refine Run.Keeps.found ?_ rfl fun out =>
          (Run.Quiet.check fields).frank.bind fun _ => .pure _
        exact op.keeps (fun token destination => token.keeps (fun _ => (Run.Quiet.scan _).frank)
          (fun _ _ => (Run.Quiet.scan _).frank) hinner destination) fun _ _ _ ht => ht

end Program

/-! ## 4. Whole texts -/

namespace Program

variable {p p' : Program} {src : Source} {s : RunState}

/-- A failure that has nothing to do with the limit is told in the same way under another one. -/
theorem failure_eq (hroot : p'.root = p.root) (hs : s.overflow = none) :
    p'.failure s = p.failure s := by
  simp only [failure, hs, hroot]

theorem refusal_eq (hroot : p'.root = p.root) (hs : s.overflow = none) :
    p'.refusal s = p.refusal s := by
  unfold refusal
  rw [failure_eq hroot hs]

/-- A run over a whole text has told of a limit if its root has met it. -/
theorem shallow_entity_of_readSource (hend : (Run.final (p.readSource src s)).Shallow) :
    (Run.final (p.entity src (p.maxDepth + 1) p.root s)).Shallow := by
  rw [readSource_eq] at hend
  cases hrun : p.entity src (p.maxDepth + 1) p.root s with
  | error f t => rw [hrun] at hend; exact hend
  | ok found t =>
    rw [hrun] at hend
    cases found with
    | none => exact hend
    | some n =>
      cases hatEnd : src.atEnd t.cursor with
      | error f c => simp only [hatEnd] at hend; exact hend
      | ok atEnd c =>
        simp only [hatEnd] at hend
        cases atEnd with
        | true => exact hend
        | false => exact fun name hname => hend name (Array.mem_push.2 (.inl hname))

/-- A run over a whole text that meets no limit is the same under a larger one. -/
theorem readSource_of_shallow (hroot : p'.root = p.root) (hsame : p'.procedures = p.procedures)
    (hdepth : p.maxDepth ≤ p'.maxDepth) (hend : (Run.final (p.readSource src {})).Shallow) :
    p'.readSource src {} = p.readSource src {} := by
  have hshallow := shallow_entity_of_readSource hend
  have hentity := (deepens_entity hsame (Nat.succ_le_succ hdepth) p.root {} hshallow).2
  have hkeeps : Run.Keeps RunState.Frank (fun _ => True)
      (p.entity src (p.maxDepth + 1) p.root) := frank_entity _ _
  have hfrank := hkeeps {} RunState.frank_empty
  rw [readSource_eq, readSource_eq, hroot, hentity]
  cases hrun : p.entity src (p.maxDepth + 1) p.root {} with
  | error f t => rfl
  | ok found t =>
    rw [hrun] at hshallow hfrank
    have hnone : t.overflow = none := hfrank.2 hshallow
    cases found with
    | none => simp only [failure_eq hroot hnone]
    | some n =>
      have hrefusal : ∀ c, p'.refusal { t with cursor := c } = p.refusal { t with cursor := c } :=
        fun c => refusal_eq hroot hnone
      simp only [hrefusal]

/-- A text that is refused for another reason than the limit has been read without meeting it. -/
theorem shallow_of_refused {e : ReadError} {t : RunState}
    (hread : p.readSource src {} = .ok (.error e) t)
    (he : ∀ name limit, e ≠ .depthLimit name limit) : t.Shallow := by
  have hkeeps : Run.Keeps RunState.Frank (fun _ => True)
      (p.entity src (p.maxDepth + 1) p.root) := frank_entity _ _
  have hfrank := hkeeps {} RunState.frank_empty
  have hfailure : ∀ u : RunState, p.failure u = e → u.overflow = none := by
    intro u hu
    unfold failure at hu
    split at hu
    · exact absurd hu.symm (he _ _)
    · assumption
  rw [readSource_eq] at hread
  cases hrun : p.entity src (p.maxDepth + 1) p.root {} with
  | error f u => rw [hrun] at hread; contradiction
  | ok found u =>
    rw [hrun] at hread hfrank
    cases found with
    | none =>
      cases hread
      exact hfrank.1 (hfailure _ rfl)
    | some n =>
      cases hatEnd : src.atEnd u.cursor with
      | error f c => simp only [hatEnd] at hread; contradiction
      | ok atEnd c =>
        cases atEnd with
        | true => simp only [hatEnd] at hread; cases hread
        | false =>
          simp only [hatEnd] at hread
          cases hread
          have hnone : u.overflow = none := by
            by_cases hhidden : u.overflow.isSome = true ∨ c.offset < c.farthest
            · exact hfailure { u with cursor := c } (if_pos hhidden).symm
            · simpa using fun h => hhidden (.inl h)
          have hu : u.Shallow := hfrank.1 hnone
          intro name hname
          rcases Array.mem_push.1 hname with hname | hname
          · exact hu name hname
          · contradiction

/-- A model of which a program is made has one under any other limit too. -/
theorem exists_ofModel_maxDepth {engine : Engine} {m : Model} {config : ReadConfig} {n : Nat}
    (h : ofModel engine m config = .ok (p, n)) (limit : Nat) :
    ∃ p', ofModel engine m { config with maxDepth := limit } = .ok (p', n) ∧ p'.root = p.root ∧
      p'.ignore = p.ignore ∧ p'.procedures = p.procedures ∧ p'.maxDepth = limit := by
  unfold ofModel at h ⊢
  cases hroot : m.root with
  | none => rw [hroot] at h; contradiction
  | some root =>
    cases hpatterns : m.patterns engine with
    | error e => simp [hroot, hpatterns, bind, Except.bind] at h
    | ok patterns =>
      cases hignore : config.ignore.mapM engine.anchoredOrError with
      | error e => simp [hroot, hpatterns, hignore, bind, Except.bind] at h
      | ok ignore =>
        simp only [hroot, hpatterns, hignore, bind, Except.bind, pure, Except.pure,
          Except.ok.injEq, Prod.mk.injEq] at h ⊢
        obtain ⟨rfl, rfl⟩ := h
        exact ⟨_, ⟨rfl, rfl⟩, rfl, rfl, rfl, rfl⟩

end Program

/-- Under a larger limit on the depth the program of a model reads as before whatever it reads
    without meeting the limit: the outcome is the same, and so is all that is told on the way. A
    text that is refused for any other reason than the limit has been read so. -/
theorem read_of_deeper {engine : Engine} {m : Model} {config : ReadConfig} {p : Program} {n : Nat}
    (hprogram : Program.ofModel engine m config = .ok (p, n)) {limit : Nat}
    (hlimit : config.maxDepth ≤ limit) (text : String) :
    ∃ p', Program.ofModel engine m { config with maxDepth := limit } = .ok (p', n) ∧
      ((∀ name, Event.tooDeep name ∉ (p.readTracing text).2) →
        p'.readTracing text = p.readTracing text) ∧
      ∀ e, p.read text = .ok (.error e) → (∀ name limit, e ≠ .depthLimit name limit) →
        p'.readTracing text = p.readTracing text := by
  obtain ⟨patterns, hmade⟩ := Program.made_of_ofModel hprogram
  obtain ⟨p', hp', hroot, hignore, hsame, hdepth⟩ :=
    Program.exists_ofModel_maxDepth hprogram limit
  have hle : p.maxDepth ≤ p'.maxDepth := by
    rw [hmade.maxDepth, hdepth]
    exact hlimit
  refine ⟨p', hp', ?_⟩
  have hshallow :
      (Run.final (p.readSource { text := text.toList, ignore := p.ignore } {})).Shallow →
        p'.readTracing text = p.readTracing text := by
    intro hend
    unfold Program.readTracing EStateM.run
    rw [hignore, Program.readSource_of_shallow hroot hsame hle hend]
  refine ⟨fun htold => hshallow ?_, fun e he hlimited => hshallow ?_⟩
  · unfold Program.readTracing EStateM.run at htold
    cases hrun : p.readSource { text := text.toList, ignore := p.ignore } {} with
    | error f t => rw [hrun] at htold; exact htold
    | ok result t => rw [hrun] at htold; exact htold
  · unfold Program.read Program.readTracing EStateM.run at he
    cases hrun : p.readSource { text := text.toList, ignore := p.ignore } {} with
    | error f t => rw [hrun] at he; contradiction
    | ok result t =>
      rw [hrun] at he
      obtain rfl : result = .error e := Except.ok.inj he
      exact Program.shallow_of_refused hrun hlimited

namespace Shallow

/-- Room for the words and marks in a list, and nothing below them. -/
def config : ReadConfig where
  ignore := none
  maxDepth := 1

def program : Program := { Sample.program with maxDepth := 1 }

theorem ofModel_eq : Program.ofModel Sample.engine Sample.model config = .ok (program, 0) :=
  rfl

/-- What is told while a list is read. -/
theorem events_eq : (program.readTracing "ac").2 =
    #[.entityTried "list" 0, .entityTried "word" 0, .entityTried "word" 1, .entityTried "mark" 1,
      .textLeft 1] := by
  decide +kernel

theorem read_eq : program.read "ac" = .ok (.error (.noMatch "list" 2 ["\"d\""])) := by
  decide +kernel

end Shallow

/-- Lists are refused alike under any larger limit, also where the failure came up in a branch that
    was given up. Without room for words and marks, it is the limit that they are refused for. -/
theorem read_of_deeper_shallow :
    Program.ofModel Sample.engine Sample.model Shallow.config = .ok (Shallow.program, 0) ∧
    Shallow.config.maxDepth ≤ 256 ∧
    (∀ name, Event.tooDeep name ∉ (Shallow.program.readTracing "ac").2) ∧
    Sample.program.readTracing "ac" = Shallow.program.readTracing "ac" ∧
    Sample.program.read "ac" = .ok (.error (.noMatch "list" 2 ["\"d\""])) ∧
    Program.read { Sample.program with maxDepth := 0 } "ac" =
      .ok (.error (.depthLimit "word" 0)) := by
  have hlimit : Shallow.config.maxDepth ≤ 256 := by decide
  obtain ⟨p', hp', hsame, hrefused⟩ := read_of_deeper Shallow.ofModel_eq hlimit "ac"
  have hprograms := Except.ok.inj (Sample.ofModel_eq.symm.trans hp')
  obtain rfl : Sample.program = p' := congrArg Prod.fst hprograms
  have hquiet : ∀ name, Event.tooDeep name ∉ (Shallow.program.readTracing "ac").2 := by
    rw [Shallow.events_eq]
    simp
  have hread : Sample.program.read "ac" = Shallow.program.read "ac" :=
    congrArg Prod.fst (hrefused _ Shallow.read_eq fun name limit h => by cases h)
  refine ⟨Shallow.ofModel_eq, hlimit, hquiet, hsame hquiet, hread.trans Shallow.read_eq, ?_⟩
  decide +kernel

end Ebnf
