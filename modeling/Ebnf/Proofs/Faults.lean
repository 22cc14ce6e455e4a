import Ebnf.Proofs.Bounds
import Ebnf.Proofs.Simulation
import Ebnf.Regex.Basic

/-!
# Where reading ends in a fault

Reading a text asks for entries of the arenas, cuts the text at the cursor, and counts its bytes.
The entries are always there, and so are the offsets of a text whose size is one. The cursor moves
by the length of what is found, and a token is only taken where it is found at the cursor. But what
may be passed over is passed over wherever it is found: if it stands further on, as many bytes from
the cursor on may end inside a character. Reading ends in a fault there, and nowhere else.

* `Matcher.Sound`, `Engine.Sound`: what is found stands in the text;
* `Source.Readable`: texts all places of which have offsets;
* `Source.Cuts`, `Source.Misleads`: where a text can be cut, and where passing over ends elsewhere;
* `Run.Safe`: steps that keep the cursor where the text can be cut, unless they are misled;
* `Program.Made.safe_entity`: reading an entity is such a step;
* `read_or_misled`: every text is read or refused, unless passing over misleads;
* `Regex.engine_sound`, `Regex.read_of_isAnchored`: it never misleads where the pattern of what may
  be passed over can be found at the start of a text only.
-/

namespace Ebnf

/-! ## 1. Matchers -/

/-- A matcher that finds what stands in the text, at the place that it tells. -/
def Matcher.Sound (find : Matcher) : Prop :=
  ∀ cs found, find cs = some found →
    ∃ front back, cs = front ++ found.text ++ back ∧ front.length = found.start

/-- An engine whose matchers find what stands in the text. -/
def Engine.Sound (engine : Engine) : Prop :=
  ∀ pattern find, engine.anchored pattern = .ok find → find.Sound

/-- What is found at the start is the beginning of the text. -/
theorem Matcher.Sound.at_start {find : Matcher} (h : find.Sound) {cs : List Char} {found : Match}
    (hfound : find cs = some found) (hstart : found.start = 0) :
    ∃ back, cs = found.text ++ back := by
  obtain ⟨front, back, hcs, hlength⟩ := h cs found hfound
  obtain rfl := List.length_eq_zero_iff.1 (hlength.trans hstart)
  exact ⟨back, hcs⟩

/-- What stands in the text is no longer than the text. -/
theorem Matcher.Sound.modest {find : Matcher} (h : find.Sound) : find.Modest := by
  intro cs found hfound
  obtain ⟨front, back, rfl, _⟩ := h cs found hfound
  simp only [Text.byteLength_append]
  omega

/-- A pattern that finds something is understood. -/
theorem Engine.anchored_of_find {engine : Engine} {pattern : String} {cs : List Char}
    {found : Match} (h : engine.find pattern cs = some found) :
    ∃ find, engine.anchored pattern = .ok find ∧ find cs = some found := by
  rw [Engine.find] at h
  cases hfind : engine.anchored pattern with
  | ok find => exact ⟨find, rfl, by rwa [hfind] at h⟩
  | error message => rw [hfind] at h; contradiction

theorem Engine.Sound.find {engine : Engine} (h : engine.Sound) (pattern : String) :
    (engine.find pattern).Sound := by
  intro cs found hfound
  obtain ⟨find, hfind, hfound⟩ := Engine.anchored_of_find hfound
  exact h pattern find hfind cs found hfound

/-! ## 2. Cutting a text -/

namespace Source

/-- The text can be cut at an offset: it is not past the end, and not inside a character. -/
def Cuts (src : Source) (o : Nat) : Prop :=
  ∃ cs, Text.dropBytes o src.text = some cs

/-- Passing over leads from one offset to another at which the text cannot be cut. What may be
    passed over was found further on, and its length was counted from the first offset. -/
def Misleads (src : Source) (o stop : Nat) : Prop :=
  ∃ find cs found, src.ignore = some find ∧ Text.dropBytes o src.text = some cs ∧
    find cs = some found ∧ found.start ≠ 0 ∧ stop = o + Text.byteLength found.text ∧
    ¬ src.Cuts stop

/-- The size of the text is an offset, and what may be passed over is found where it stands. -/
structure Readable (src : Source) : Prop where
  short : src.size < UInt32.size
  passes : ∀ find, src.ignore = some find → find.Sound

variable {src : Source} {o stop : Nat}

theorem cuts_zero (src : Source) : src.Cuts 0 :=
  ⟨src.text, Text.dropBytes_zero src.text⟩

/-- The text can be cut behind what follows a cut. -/
theorem cuts_add {front back : List Char}
    (h : Text.dropBytes o src.text = some (front ++ back)) :
    src.Cuts (o + Text.byteLength front) :=
  ⟨back, by rw [Text.dropBytes_add h, Text.dropBytes_byteLength_append]⟩

/-- What is left after a cut makes up the rest of the size. -/
theorem add_byteLength {cs : List Char} (h : Text.dropBytes o src.text = some cs) :
    o + Text.byteLength cs = src.size := by
  obtain ⟨front, htext, rfl⟩ := Text.dropBytes_eq_some_iff.1 h
  rw [src.size_eq, htext, Text.byteLength_append]

theorem Cuts.le_size (h : src.Cuts o) : o ≤ src.size := by
  obtain ⟨cs, hcs⟩ := h
  have := add_byteLength hcs
  omega

theorem cuts_size (src : Source) : src.Cuts src.size := by
  refine ⟨[], ?_⟩
  rw [src.size_eq]
  simpa using Text.dropBytes_byteLength_append src.text []

/-- However passing over misleads, it ends inside the text. -/
theorem Misleads.lt_size (hreadable : src.Readable) (h : src.Misleads o stop) :
    stop < src.size := by
  obtain ⟨find, cs, found, hignore, hcs, hfound, _, rfl, hcut⟩ := h
  have hlength := (hreadable.passes find hignore).modest cs found hfound
  have hsize := add_byteLength hcs
  rcases Nat.lt_or_eq_of_le (show o + Text.byteLength found.text ≤ src.size by omega) with h | h
  · exact h
  · exact absurd (h ▸ src.cuts_size) hcut

/-- Passing over moves the cursor by the length of what is found, wherever that stands. -/
theorem skip_eq {find : Matcher} {c : Cursor} {cs : List Char} (hignore : src.ignore = some find)
    (hcs : Text.dropBytes c.offset src.text = some cs) :
    src.skip c = match find cs with
      | some found => Cursor.advance found.text c
      | none => .ok () c := by
  unfold skip
  simp only [hignore, src.rest_bind, hcs]
  cases find cs <;> rfl

/-- The place that it leads to has an offset. -/
theorem Readable.skip_eq (hreadable : src.Readable) {find : Matcher} {c : Cursor} {cs : List Char}
    {found : Match} (hignore : src.ignore = some find)
    (hcs : Text.dropBytes c.offset src.text = some cs) (hfound : find cs = some found) :
    src.skip c = .ok () (c.moveTo (c.offset + Text.byteLength found.text)) := by
  have hlength := (hreadable.passes find hignore).modest cs found hfound
  have hsize := add_byteLength hcs
  have hshort := hreadable.short
  rw [Source.skip_eq hignore hcs, hfound]
  exact Cursor.advance_eq_ok.2 ⟨by omega, rfl⟩

/-- Where a text can be cut passing over leads to such a place again, or misleads. -/
theorem Readable.exists_skip (hreadable : src.Readable) {c : Cursor} (hc : src.Cuts c.offset) :
    ∃ stop, src.skip c = .ok () (c.moveTo stop) ∧
      (src.Cuts stop ∨ src.Misleads c.offset stop) := by
  cases hignore : src.ignore with
  | none => exact ⟨c.offset, by unfold skip; rw [hignore]; rfl, .inl hc⟩
  | some find =>
    obtain ⟨cs, hcs⟩ := hc
    cases hfound : find cs with
    | none =>
      refine ⟨c.offset, ?_, .inl ⟨cs, hcs⟩⟩
      rw [Source.skip_eq hignore hcs, hfound]
      rfl
    | some found =>
      refine ⟨c.offset + Text.byteLength found.text, hreadable.skip_eq hignore hcs hfound, ?_⟩
      by_cases hcut : src.Cuts (c.offset + Text.byteLength found.text)
      · exact .inl hcut
      · refine .inr ⟨find, cs, found, hignore, hcs, hfound, fun hstart => hcut ?_, rfl, hcut⟩
        obtain ⟨back, rfl⟩ := (hreadable.passes find hignore).at_start hfound hstart
        exact cuts_add hcs

/-- What is done after passing over is done where that has led. -/
theorem skip_bind {α : Type} {c : Cursor} {stop : Nat} (h : src.skip c = .ok () (c.moveTo stop))
    (next : List Char → Scan α) : (src.skip >>= fun _ => src.rest >>= next) c =
      match Text.dropBytes stop src.text with
      | some cs => next cs (c.moveTo stop)
      | none => .error (.noBoundary stop) (c.moveTo stop) := by
  rw [bind_of_ok h]
  exact src.rest_bind next (c.moveTo stop)

/-- Where passing over misleads, reading ends in a fault, whatever is to be read. -/
theorem Misleads.fault {α : Type} {c : Cursor} (hreadable : src.Readable)
    (h : src.Misleads c.offset stop) (next : List Char → Scan α) :
    (src.skip >>= fun _ => src.rest >>= next) c = .error (.noBoundary stop) (c.moveTo stop) := by
  obtain ⟨find, cs, found, hignore, hcs, hfound, _, rfl, hcut⟩ := h
  have hskip := hreadable.skip_eq hignore hcs hfound
  have hnone : Text.dropBytes (c.offset + Text.byteLength found.text) src.text = none :=
    Option.eq_none_iff_forall_ne_some.2 fun rest hrest => hcut ⟨rest, hrest⟩
  rw [skip_bind hskip, hnone]

end Source

/-! ## 3. Reading at the cursor -/

/-- The offsets of a cursor are places at which the text can be cut. -/
structure Cursor.Sits (c : Cursor) (src : Source) : Prop where
  offset : src.Cuts c.offset
  farthest : src.Cuts c.farthest

/-- A fault at a place to which passing over has led. -/
def Source.Traps (src : Source) (f : Fault) : Prop :=
  ∃ o stop, f = .noBoundary stop ∧ src.Misleads o stop

/-- A step of the scanner that keeps the cursor where the text can be cut, unless it is misled. -/
def Source.Steers {α : Type} (src : Source) (scan : Scan α) : Prop :=
  ∀ c : Cursor, c.Sits src →
    match scan c with
    | .ok _ d => d.Sits src
    | .error f _ => src.Traps f

namespace Cursor.Sits

variable {src : Source} {c : Cursor}

theorem moveTo (h : c.Sits src) {o : Nat} (ho : src.Cuts o) : (c.moveTo o).Sits src :=
  ⟨ho, h.farthest⟩

/-- A failure is noted where the cursor is. -/
theorem noteFailure (h : c.Sits src) (what : String) : (c.noteFailure what).Sits src := by
  unfold Cursor.noteFailure
  split
  · exact ⟨h.offset, h.offset⟩
  · split
    · exact ⟨h.offset, h.farthest⟩
    · exact h

/-- A cursor where the text can be cut moves behind what follows. -/
theorem advance (hreadable : src.Readable) (h : c.Sits src) {front back : List Char}
    (hcs : Text.dropBytes c.offset src.text = some (front ++ back)) :
    ∃ d, Cursor.advance front c = .ok () d ∧ d.Sits src := by
  have hcut := Source.cuts_add hcs
  have hroom : c.offset + Text.byteLength front < UInt32.size :=
    Nat.lt_of_le_of_lt hcut.le_size hreadable.short
  exact ⟨_, Cursor.advance_eq_ok.2 ⟨hroom, rfl⟩, h.moveTo hcut⟩

end Cursor.Sits

namespace Source.Steers

variable {α : Type} {src : Source}

/-- What is done with the text after the cursor, once what may be passed over is passed over. -/
theorem after_skip (hreadable : src.Readable) {next : List Char → Scan α}
    (hnext : ∀ cs (c : Cursor), c.Sits src → Text.dropBytes c.offset src.text = some cs →
      ∃ a d, next cs c = .ok a d ∧ d.Sits src) :
    src.Steers (src.skip >>= fun _ => src.rest >>= next) := by
  intro c hc
  obtain ⟨stop, hskip, hstop⟩ := hreadable.exists_skip hc.offset
  rw [skip_bind hskip]
  cases hcs : Text.dropBytes stop src.text with
  | none =>
    have hcut : ¬ src.Cuts stop := fun ⟨cs, h⟩ => Option.some_ne_none cs (h.symm.trans hcs)
    exact ⟨c.offset, stop, rfl, hstop.resolve_left hcut⟩
  | some cs =>
    obtain ⟨a, d, hok, hd⟩ := hnext cs (c.moveTo stop) (hc.moveTo ⟨cs, hcs⟩) hcs
    simp only [hok]
    exact hd

theorem literal (hreadable : src.Readable) (text : String) : src.Steers (src.literal text) := by
  refine after_skip hreadable fun cs c hc hcs => ?_
  by_cases hprefix : text.toList.isPrefixOf cs
  · obtain ⟨back, rfl⟩ := List.isPrefixOf_iff_prefix.1 hprefix
    rw [if_pos hprefix]
    obtain ⟨d, hadvance, hd⟩ := hc.advance hreadable hcs
    exact ⟨_, d, bind_of_ok hadvance, hd⟩
  · rw [if_neg hprefix]
    exact ⟨_, _, rfl, hc.noteFailure _⟩

/-- A pattern is only taken where it is found at the cursor. -/
theorem pattern (hreadable : src.Readable) {find : Matcher} (hfind : find.Sound) (shown : String) :
    src.Steers (src.pattern find shown) := by
  refine after_skip hreadable fun cs c hc hcs => ?_
  cases hfound : find cs with
  | none => exact ⟨_, _, rfl, hc.noteFailure _⟩
  | some place =>
    obtain ⟨start, found⟩ := place
    cases start with
    | succ start => exact ⟨_, _, rfl, hc.noteFailure _⟩
    | zero =>
      obtain ⟨back, rfl⟩ := hfind.at_start hfound rfl
      obtain ⟨d, hadvance, hd⟩ := hc.advance hreadable hcs
      exact ⟨_, d, bind_of_ok hadvance, hd⟩

theorem atEnd (hreadable : src.Readable) : src.Steers src.atEnd :=
  after_skip hreadable fun _ c hc _ => ⟨_, c, rfl, hc⟩

end Source.Steers

/-! ## 4. Steps of a run -/

/-- A step of a run that keeps the cursor where the text can be cut, unless it is misled. -/
def Run.Safe {α : Type} (src : Source) (step : Run α) : Prop :=
  ∀ s : RunState, s.cursor.Sits src →
    match step s with
    | .ok _ t => t.cursor.Sits src
    | .error f _ => src.Traps f

namespace Run.Safe

variable {α β : Type} {src : Source} {step : Run α}

theorem pure (a : α) : Safe src (Pure.pure a : Run α) :=
  fun _ hs => hs

theorem scan {step : Scan α} (h : src.Steers step) : Safe src (Run.scan step) := by
  intro s hs
  have hstep := h s.cursor hs
  unfold Run.scan
  cases hscan : step s.cursor with
  | ok a c => rw [hscan] at hstep; exact hstep
  | error f c => rw [hscan] at hstep; exact hstep

theorem bind (h : Safe src step) {next : α → Run β} (hnext : ∀ a, Safe src (next a)) :
    Safe src (step >>= next) :=
  Keeps.bind h hnext

/-- What only goes on with something that was found. -/
theorem found {step : Run (Option α)} (h : Safe src step) {next : Option α → Run (Option β)}
    (hnone : next none = Pure.pure none) (hsome : ∀ a, Safe src (next (some a))) :
    Safe src (step >>= next) :=
  Keeps.found h hnone hsome

theorem modified {step : Run (Option Assignments)} (h : Safe src step) (limit : Nat)
    (mods : Modifiers) : Safe src (Ebnf.modified limit mods step) :=
  Keeps.modified h (fun _ _ hs ht => ht.moveTo hs.offset) limit mods

end Run.Safe

/-! ## 5. Instructions -/

section

variable {src : Source} {engine : Engine} {inner : Name → Run (Option (Option Value))}
  {patterns : Patterns} {dest : Nat → Destination}

/-- Reading what a leaf describes is safe. -/
theorem Symbol.safe (hreadable : src.Readable) (hengine : engine.Sound)
    (hinner : ∀ target, Run.Safe src (inner target)) {destination : Destination} (symbol : Symbol)
    (hpattern : ∀ source, symbol = .pattern source →
      patterns.lookup source = some (engine.find source)) :
    Run.Safe src ((symbol.token patterns).run src inner destination) := by
  cases symbol with
  | literal text witness =>
    exact (Run.Safe.scan (.literal hreadable text)).found rfl fun _ => .pure _
  | pattern source =>
    rw [Symbol.token, hpattern source rfl]
    have hscan := Run.Safe.scan (.pattern hreadable (hengine.find source) source)
    exact hscan.found rfl fun _ => .pure _
  | reference target => exact (hinner target).found rfl fun _ => .pure _

namespace Plan

variable {m : Model} {entity : Name} {link : ActionId → Option PropertyId}

mutual

/-- The instructions of a plan are safe. -/
theorem Stands.safe (hreadable : src.Readable) (hengine : engine.Sound)
    (hinner : ∀ target, Run.Safe src (inner target)) (hpatterns : Understood m patterns engine)
    {a q : Nat} {parent : Option ActionId} :
    ∀ {p : Plan}, p.Stands m entity link a q parent →
      Run.Safe src ((p.op patterns dest q).run src inner)
  | leaf mods symbol slot, ⟨htop, _⟩ => by
    rw [op, Op.run]
    refine (symbol.safe hreadable hengine hinner fun source hsource => ?_).modified _ mods
    exact hpatterns a _ source htop (by rw [hsource]; rfl)
  | node mods choice parts, ⟨hparts, _⟩ => by
    cases choice with
    | true => exact (hparts.safe_any hreadable hengine hinner hpatterns).modified _ mods
    | false => exact (hparts.safe_all hreadable hengine hinner hpatterns).modified _ mods

theorem StandInRow.safe_any (hreadable : src.Readable) (hengine : engine.Sound)
    (hinner : ∀ target, Run.Safe src (inner target)) (hpatterns : Understood m patterns engine)
    {a q : Nat} {parent : Option ActionId} :
    ∀ {ps : List Plan}, StandInRow m entity link a q parent ps →
      Run.Safe src (runAny src inner (opsOf patterns dest q ps))
  | [], _ => by
    rw [opsOf, runAny]
    exact .pure none
  | p :: ps, ⟨hp, hps⟩ => by
    rw [opsOf, runAny]
    refine (hp.safe hreadable hengine hinner hpatterns).bind fun out => ?_
    cases out with
    | none => exact hps.safe_any hreadable hengine hinner hpatterns
    | some out => exact .pure _

theorem StandInRow.safe_all (hreadable : src.Readable) (hengine : engine.Sound)
    (hinner : ∀ target, Run.Safe src (inner target)) (hpatterns : Understood m patterns engine)
    {a q : Nat} {parent : Option ActionId} :
    ∀ {ps : List Plan}, StandInRow m entity link a q parent ps →
      Run.Safe src (runAll src inner (opsOf patterns dest q ps))
  | [], _ => by
    rw [opsOf, runAll]
    exact .pure _
  | p :: ps, ⟨hp, hps⟩ => by
    rw [opsOf, runAll]
    refine (hp.safe hreadable hengine hinner hpatterns).found rfl fun out => ?_
    exact (hps.safe_all hreadable hengine hinner hpatterns).found rfl fun _ => .pure _

end

end Plan

end

/-! ## 6. Entities -/

section

variable {g : Grammar} {engine : Engine} {m : Model} {config : ReadConfig} {p : Program}
  {patterns : Patterns} {src : Source}

/-- Reading an entity is safe. What the arenas are asked for on the way is there. -/
theorem Program.Made.safe_entity [Unicode.Xid] (hmade : p.Made engine m config patterns)
    (hreached : Build.Reached g m True) (hreadable : src.Readable) (hengine : engine.Sound)
    (depth : Nat) : ∀ name, Run.Safe src (p.entity src depth name) := by
  induction depth with
  | zero => exact fun name s hs => hs
  | succ depth ih =>
    intro name
    have hinner : ∀ target, Run.Safe src (p.inner src depth target) := by
      intro target
      refine (ih target).found rfl fun n => .bind (fun s hs => ?_) fun _ => .pure _
      obtain ⟨b, hb⟩ := hreached.isVirtual_ok n.entity
      rw [hmade.nodeValue_eq hb s]
      exact hs
    unfold Program.entity
    cases he : m.entity? name with
    | none =>
      rw [hmade.procedure?_eq, he]
      exact .pure none
    | some e =>
      obtain ⟨site, hsited⟩ := hreached.bodies trivial
      obtain ⟨proc, r, fields, hproc, hof⟩ := hmade.procedure_some hreached hsited he
      simp only [hproc, hof.body, hof.fields_eq, Run.check, pure_bind]
      refine .bind (fun s hs => hs) fun _ => .bind (fun s hs => hs) fun _ => ?_
      exact (hof.hosts.stands.safe hreadable hengine hinner hmade.patterns).found rfl fun _ =>
        .pure _

/-! ## 7. Whole texts -/

/-- The offset that an error tells of. -/
def ReadError.offset? : ReadError → Option Nat
  | .noMatch _ offset _ => some offset
  | .trailingInput offset => some offset
  | _ => none

/-- The offset of an error is a place at which the text can be cut. -/
def Source.Admits (src : Source) (result : Except ReadError Node) : Prop :=
  ∀ e o, result = .error e → e.offset? = some o → src.Cuts o

/-- The reason that is given for a failure tells of the farthest offset, if of any. -/
theorem Program.admits_failure {s : RunState} (hs : s.cursor.Sits src) :
    src.Admits (.error (p.failure s)) := by
  intro e o he ho
  obtain rfl := Except.error.inj he
  unfold failure at ho
  split at ho
  · contradiction
  · exact Option.some.inj ho ▸ hs.farthest

theorem Program.admits_refusal {s : RunState} (hs : s.cursor.Sits src) :
    src.Admits (.error (p.refusal s)) := by
  unfold refusal
  split
  · exact admits_failure hs
  · intro e o he ho
    obtain rfl := Except.error.inj he
    exact Option.some.inj ho ▸ hs.offset

/-- What may be passed over under a configuration is found where it stands. -/
theorem ReadConfig.passes_source (hengine : engine.Sound) (text : String) :
    ∀ find, (config.source engine text).ignore = some find → find.Sound := by
  intro find hfind
  obtain ⟨pattern, _, rfl⟩ := Option.map_eq_some_iff.1 hfind
  exact hengine.find pattern

/-- A whole text is read or refused, or a trap is run into. -/
theorem Program.Made.read_safe [Unicode.Xid] (hmade : p.Made engine m config patterns)
    (hreached : Build.Reached g m True) (hengine : engine.Sound) {text : String}
    (hsize : Text.byteLength text.toList < UInt32.size) :
    (∃ result, p.read text = .ok result ∧ (config.source engine text).Admits result) ∨
    ∃ f, p.read text = .error f ∧ (config.source engine text).Traps f := by
  rw [p.read_eq, hmade.source_eq]
  generalize hsrc : config.source engine text = src
  have hreadable : src.Readable := hsrc ▸ ⟨hsize, ReadConfig.passes_source hengine text⟩
  have hroot := hmade.safe_entity hreached hreadable hengine (p.maxDepth + 1) p.root {}
    ⟨src.cuts_zero, src.cuts_zero⟩
  cases hrun : p.entity src (p.maxDepth + 1) p.root {} with
  | error f s =>
    rw [hrun] at hroot
    exact .inr ⟨f, rfl, hroot⟩
  | ok found s =>
    rw [hrun] at hroot
    cases found with
    | none => exact .inl ⟨_, rfl, Program.admits_failure hroot⟩
    | some node =>
      have hend := Source.Steers.atEnd hreadable s.cursor hroot
      simp only
      cases hscan : src.atEnd s.cursor with
      | error f c =>
        rw [hscan] at hend
        exact .inr ⟨f, rfl, hend⟩
      | ok atEnd c =>
        rw [hscan] at hend
        cases atEnd with
        | true => exact .inl ⟨_, rfl, fun e o he => by contradiction⟩
        | false => exact .inl ⟨_, rfl, Program.admits_refusal hend⟩

/-- No trap is run into if what may be passed over is found at the start of a text only. -/
theorem read_of_start [Unicode.Xid] {n : Nat} (hmodel : Model.ofGrammar g = .ok m)
    (hprogram : Program.ofModel engine m config = .ok (p, n)) (hengine : engine.Sound)
    (hstart : ∀ pattern, config.ignore = some pattern →
      ∀ cs found, engine.find pattern cs = some found → found.start = 0) {text : String}
    (hsize : Text.byteLength text.toList < UInt32.size) :
    ∃ result, p.read text = .ok result := by
  have hreached := (Build.reached_ofGrammar hmodel).1
  obtain ⟨patterns, hmade⟩ := Program.made_of_ofModel hprogram
  rcases hmade.read_safe hreached hengine hsize with ⟨result, hread, _⟩ | ⟨f, _, htraps⟩
  · exact ⟨result, hread⟩
  · obtain ⟨_, _, _, find, cs, found, hfind, _, hfound, hne, _⟩ := htraps
    obtain ⟨pattern, hpattern, rfl⟩ := Option.map_eq_some_iff.1 hfind
    exact absurd (hstart pattern hpattern cs found hfound) hne

/-- Reading ends in a fault only where what may be passed over is found further on and its length
    leads from the cursor into a character. Any other text of a size that 32 bits can hold is read,
    or is refused with an error; and the offset that an error tells of is one at which the text can
    be cut. -/
theorem read_unless_misled [Unicode.Xid] {n : Nat} (hmodel : Model.ofGrammar g = .ok m)
    (hprogram : Program.ofModel engine m config = .ok (p, n)) (hengine : engine.Sound)
    {text : String} (hsize : Text.byteLength text.toList < UInt32.size) :
    let src := config.source engine text
    (∃ result, p.read text = .ok result ∧
      ∀ e o, result = .error e → e.offset? = some o → src.Cuts o ∧ o < UInt32.size) ∨
    ∃ o stop, p.read text = .error (.noBoundary stop) ∧ src.Misleads o stop ∧
      stop < UInt32.size := by
  intro src
  have hreached := (Build.reached_ofGrammar hmodel).1
  obtain ⟨patterns, hmade⟩ := Program.made_of_ofModel hprogram
  have hreadable : src.Readable := ⟨hsize, ReadConfig.passes_source hengine text⟩
  rcases hmade.read_safe hreached hengine hsize with ⟨result, hread, hadmits⟩ | ⟨f, hread, htraps⟩
  · refine .inl ⟨result, hread, fun e o he ho => ?_⟩
    have hcut := hadmits e o he ho
    exact ⟨hcut, Nat.lt_of_le_of_lt hcut.le_size hreadable.short⟩
  · obtain ⟨o, stop, rfl, hmisleads⟩ := htraps
    have hlt := hmisleads.lt_size hreadable
    exact .inr ⟨o, stop, hread, hmisleads, Nat.lt_trans hlt hreadable.short⟩

end

namespace Letter

/-- A single letter. -/
def grammar : Grammar where
  rules := [{ name := "letter", body := .literal none "b" }]

def letter : Entity where
  name := "letter"
  rule := grammar.rule? "letter"
  properties := [("letter", ⟨0⟩)]
  action := some ⟨0⟩

def model : Model where
  entities := [letter]
  properties := #[{ name := "letter", entity := "letter", source := ⟨0⟩ }]
  actions := #[{ kind := .literal "b", property := some ⟨0⟩ }]
  root := some "letter"

/-- The brackets around the pattern are closed by it and opened again: what may be passed over is
    an `x` at the start, or else the first `b`, wherever it stands. -/
def config : ReadConfig where
  ignore := some "x)|(b"

def find : Matcher := fun cs =>
  if cs.head? = some 'x' then some ⟨0, ['x']⟩
  else (cs.idxOf? 'b').map fun start => ⟨start, ['b']⟩

/-- Understands that pattern only. -/
def engine : Engine where
  compile text := if text = "\\A(?:x)|(b)" then .ok find else .error "not understood"

def program : Program where
  root := "letter"
  ignore := some find
  maxDepth := 256
  procedures := model.entities.map fun e => (e.name, Procedure.ofModel model [] e)

theorem sound : engine.Sound := by
  intro pattern matcher hmatcher cs found hfound
  rw [Engine.anchored, engine] at hmatcher
  simp only at hmatcher
  split at hmatcher
  · obtain rfl := Except.ok.inj hmatcher
    unfold find at hfound
    split at hfound
    · next hx =>
      obtain rfl := Option.some.inj hfound
      obtain ⟨back, rfl⟩ : ∃ back, cs = 'x' :: back := List.head?_eq_some_iff.1 hx
      exact ⟨[], back, rfl, rfl⟩
    · obtain ⟨start, hstart, rfl⟩ := Option.map_eq_some_iff.1 hfound
      obtain ⟨hlt, hb, _⟩ := List.idxOf?_eq_some_iff.1 hstart
      refine ⟨cs.take start, cs.drop (start + 1), ?_, List.length_take_of_le (Nat.le_of_lt hlt)⟩
      rw [List.append_assoc, List.singleton_append, ← hb, List.getElem_cons_drop,
        List.take_append_drop]
  · contradiction

theorem walk_eq (events : Array Event) (attached : List (Name × PropertyId)) :
    Build.walk ["letter"] [] ["letter"] { model, events, attached } =
      .ok () { model, events, attached } := by
  have hletter : Build.discover letter { model, events, attached } =
      .ok [] { model, events, attached } := by
    cbv
  rw [Build.walk_cons (by decide) rfl hletter, List.nil_append, Build.walk]
  rfl

theorem ofGrammar_eq : Model.ofGrammar grammar = .ok model :=
  Build.ofGrammar_of_walk (m := model) (by cbv) rfl
    fun events attached => ⟨_, _, walk_eq events attached⟩

theorem ofModel_eq : Program.ofModel engine model config = .ok (program, 0) :=
  rfl

theorem read_eq : program.read "éb" = .error (.noBoundary 1) := by
  decide +kernel

end Letter

/-- Before the letter stands one of two bytes. The ignored pattern finds the letter behind it, of
    one byte, so the cursor comes to stand between the two. -/
theorem read_unless_misled_letter :
    Model.ofGrammar Letter.grammar = .ok Letter.model ∧
    Program.ofModel Letter.engine Letter.model Letter.config = .ok (Letter.program, 0) ∧
    Letter.engine.Sound ∧ Text.byteLength "éb".toList < UInt32.size ∧
    Letter.program.read "éb" = .error (.noBoundary 1) ∧
    ∃ o, (Letter.config.source Letter.engine "éb").Misleads o 1 := by
  have hsize : Text.byteLength "éb".toList < UInt32.size := by decide
  refine ⟨Letter.ofGrammar_eq, Letter.ofModel_eq, Letter.sound, hsize, Letter.read_eq, ?_⟩
  rcases read_unless_misled Letter.ofGrammar_eq Letter.ofModel_eq Letter.sound hsize with
    ⟨result, hread, _⟩ | ⟨o, stop, hread, hmisleads, _⟩
  · rw [Letter.read_eq] at hread
    contradiction
  · rw [Letter.read_eq] at hread
    obtain rfl : 1 = stop := by simpa using hread
    exact ⟨o, hmisleads⟩

/-! ## 8. Regular expressions -/

namespace Regex

namespace Automaton

/-- A match starts at one of the places at which it is looked for. -/
theorem mem_of_findAt? {a : Automaton} {text : Array Char} {place : Nat × Nat} :
    ∀ {starts : List Nat} {tried : Std.HashSet Place},
      a.findAt? text starts tried = some place → place.1 ∈ starts
  | [], _, h => by contradiction
  | i :: rest, tried, h => by
    rw [findAt?] at h
    split at h
    · obtain rfl := Option.some.inj h
      exact List.mem_cons_self
    · exact List.mem_cons_of_mem _ (mem_of_findAt? h)

theorem find?_eq_some {a : Automaton} {cs : List Char} {found : Match}
    (h : a.find? cs = some found) :
    ∃ first stop, first ∈ (if a.isAnchored then [0] else List.range (cs.length + 1)) ∧
      found = { start := first, text := (cs.drop first).take (stop - first) } := by
  have hsize : cs.toArray.size = cs.length := rfl
  simp only [find?, hsize] at h
  cases hfound : a.findAt? cs.toArray
      (if a.isAnchored then [0] else List.range (cs.length + 1)) ∅ with
  | none =>
    rw [hfound] at h
    contradiction
  | some place =>
    rw [hfound] at h
    exact ⟨place.1, place.2, mem_of_findAt? hfound, (Option.some.inj h).symm⟩

theorem sound_find? (a : Automaton) : Matcher.Sound a.find? := by
  intro cs found hfound
  obtain ⟨first, stop, hmem, rfl⟩ := find?_eq_some hfound
  have hle : first ≤ cs.length := by
    split at hmem
    · obtain rfl := List.mem_singleton.1 hmem
      exact Nat.zero_le _
    · exact Nat.le_of_lt_succ (List.mem_range.1 hmem)
  refine ⟨cs.take first, (cs.drop first).drop (stop - first), ?_, List.length_take_of_le hle⟩
  rw [List.append_assoc, List.take_append_drop, List.take_append_drop]

/-- A pattern that begins with the start of the text is found there only. -/
theorem start_eq_zero {a : Automaton} (ha : a.isAnchored = true) {cs : List Char} {found : Match}
    (h : a.find? cs = some found) : found.start = 0 := by
  obtain ⟨first, stop, hmem, rfl⟩ := find?_eq_some h
  rw [if_pos ha] at hmem
  exact List.mem_singleton.1 hmem

end Automaton

/-- What an engine for regular expressions makes of a pattern is the automaton of it. -/
theorem exists_of_anchored {pattern : String} {find : Matcher}
    (h : engine.anchored pattern = .ok find) :
    ∃ a, automaton ("\\A(?:" ++ pattern ++ ")") = .ok a ∧ find = a.find? := by
  unfold Engine.anchored engine at h
  simp only at h
  split at h
  · next a ha => exact ⟨a, ha, (Except.ok.inj h).symm⟩
  · contradiction

/-- Regular expressions are found where they stand. -/
theorem engine_sound : engine.Sound := by
  intro pattern find hfind
  obtain ⟨a, _, rfl⟩ := exists_of_anchored hfind
  exact a.sound_find?

/-- With regular expressions no trap is run into if the one for what may be passed over still begins
    with the start of the text once it is put between brackets. -/
theorem read_of_isAnchored [Unicode.Xid] {g : Grammar} {m : Model} {config : ReadConfig}
    {p : Program} {n : Nat} (hmodel : Model.ofGrammar g = .ok m)
    (hprogram : Program.ofModel engine m config = .ok (p, n))
    (hanchored : ∀ pattern a, config.ignore = some pattern →
      automaton ("\\A(?:" ++ pattern ++ ")") = .ok a → a.isAnchored = true)
    {text : String} (hsize : Text.byteLength text.toList < UInt32.size) :
    ∃ result, p.read text = .ok result := by
  refine read_of_start hmodel hprogram engine_sound ?_ hsize
  intro pattern hpattern cs found hfound
  obtain ⟨find, hfind, hfound⟩ := Engine.anchored_of_find hfound
  obtain ⟨a, ha, rfl⟩ := exists_of_anchored hfind
  exact Automaton.start_eq_zero (hanchored pattern a hpattern ha) hfound

end Regex

end Ebnf
