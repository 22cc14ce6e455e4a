import Ebnf.Proofs.Reordering

/-!
# What was expected and not found

A run looks for many tokens that are not there. It forgets most of these failures as soon as
something fails farther on, and it puts the cursor back as if nothing had happened; but what it
remembers in the end is told by the list of all its failures, in the order in which they came up.
The failures of a step are listed here along the way that the step takes, whether it is kept or not.

* `Miss`, `Op.misses`, `Program.misses`: the failures of a run, from the state it starts in;
* `Cursor.Recalls`: what a cursor remembers of a list of failures;
* `Run.Reports`: a step remembers its failures, and finds nothing only if it has some or has met
  the limit on the depth;
* `Program.Made.reports_entity`: reading an entity does;
* `refusals_exact`: why a text is not read is told by the failures of the run over it.
-/

namespace Ebnf

variable {α β : Type}

/-! ## 1. Failures -/

/-- A place where something was expected and not found. -/
structure Miss where
  /-- The offset, after what may be passed over. -/
  offset : Nat
  /-- What was expected. -/
  what : String
deriving DecidableEq, Repr

/-- What was expected at an offset, each once, in the order in which it first failed there. -/
def missedAt (log : List Miss) (offset : Nat) : List String :=
  ((log.filter (·.offset = offset)).map Miss.what).eraseDups

/-- Tells in which places a step fails to find a token, from the state it starts in. -/
abbrev Misses := RunState → List Miss

namespace Misses

/-- A token that is looked for is missed, or not, where the cursor is then. -/
def ofScan (scan : Scan (Option (List Char))) (what : String) : Misses := fun s =>
  match scan s.cursor with
  | .ok none c => [{ offset := c.offset, what }]
  | _ => []

/-- The misses of a step, and if it succeeds those of another one. -/
def both (step : Run (Option Assignments)) (first next : Misses) : Misses := fun s =>
  first s ++ match step s with
    | .ok (some _) t => next t
    | _ => []

/-- The misses of a step, and if it fails those of another one. -/
def either (step : Run (Option Assignments)) (first next : Misses) : Misses := fun s =>
  first s ++ match step s with
    | .ok none t => next t
    | _ => []

/-- The misses of all rounds of a repetition. -/
def many (limit : Nat) (step : Run (Option Assignments)) (once : Misses) (s : RunState) :
    List Miss :=
  once s ++ match step s with
    | .ok (some _) t =>
      if s.cursor.offset < t.cursor.offset ∧ t.cursor.offset ≤ limit then many limit step once t
      else []
    | _ => []
termination_by limit - s.cursor.offset

/-- The misses of a step that is done as often as it is wanted. -/
def marked (limit : Nat) (mods : Modifiers) (step : Run (Option Assignments)) (once : Misses) :
    Misses :=
  if mods.plural then many limit step once else once

end Misses

/-- The misses of reading a token. `missed` gives those of reading an entity. -/
def Token.misses (src : Source) (missed : Name → Misses) : Token → Misses
  | .literal text _ => .ofScan (src.literal text) (Text.quote text)
  | .pattern shown find => .ofScan (src.pattern find shown) ("/" ++ shown ++ "/")
  | .entity target => missed target

mutual

/-- The misses of following an instruction. -/
def Op.misses (src : Source) (entity : Name → Run (Option (Option Value)))
    (missed : Name → Misses) : Op → Misses
  | .leaf mods token destination =>
    .marked src.size mods (token.run src entity destination) (token.misses src missed)
  | .all mods ops =>
    .marked src.size mods (runAll src entity ops) (missesAll src entity missed ops)
  | .any mods ops =>
    .marked src.size mods (runAny src entity ops) (missesAny src entity missed ops)

/-- The misses of following every instruction in order. -/
def missesAll (src : Source) (entity : Name → Run (Option (Option Value)))
    (missed : Name → Misses) : List Op → Misses
  | [] => fun _ => []
  | op :: ops =>
    .both (op.run src entity) (op.misses src entity missed) (missesAll src entity missed ops)

/-- The misses of following the first instruction that succeeds, and all before it. -/
def missesAny (src : Source) (entity : Name → Run (Option (Option Value)))
    (missed : Name → Misses) : List Op → Misses
  | [] => fun _ => []
  | op :: ops =>
    .either (op.run src entity) (op.misses src entity missed) (missesAny src entity missed ops)

end

/-- The misses of reading an entity, where entities may be nested `depth` deep from here on. -/
def Program.misses (p : Program) (src : Source) : Nat → Name → Misses
  | 0, _ => fun _ => []
  | depth + 1, name => fun s =>
    match p.procedure? name with
    | some { body := some (.ok op), .. } =>
      op.misses src (p.inner src depth) (p.misses src depth)
        { s with events := s.events.push (.entityTried name s.cursor.offset) }
    | _ => []

/-! ## 2. What a cursor remembers -/

namespace Cursor

/-- What a cursor remembers of failures: the farthest offset, and what was expected there. -/
structure Recalls (c : Cursor) (log : List Miss) : Prop where
  within : ∀ miss ∈ log, miss.offset ≤ c.farthest
  reached : c.farthest ≠ 0 → ∃ miss ∈ log, miss.offset = c.farthest
  expected : c.expected = missedAt log c.farthest
  nodup : c.expected.Nodup

variable {c d : Cursor} {log : List Miss}

theorem recalls_empty : Recalls {} [] where
  within := fun _ hmem => absurd hmem List.not_mem_nil
  reached := fun h => absurd rfl h
  expected := rfl
  nodup := List.nodup_nil

/-- Where a cursor is makes no difference to what it remembers. -/
theorem Recalls.congr (h : c.Recalls log) (hfarthest : d.farthest = c.farthest)
    (hexpected : d.expected = c.expected) : d.Recalls log where
  within := by rw [hfarthest]; exact h.within
  reached := by rw [hfarthest]; exact h.reached
  expected := by rw [hfarthest, hexpected]; exact h.expected
  nodup := by rw [hexpected]; exact h.nodup

/-- Something that was expected at the farthest offset fails there once more, or is added. -/
theorem missedAt_concat (log : List Miss) (miss : Miss) :
    missedAt (log ++ [miss]) miss.offset =
      if miss.what ∈ missedAt log miss.offset then missedAt log miss.offset
      else missedAt log miss.offset ++ [miss.what] := by
  have hfilter : (log ++ [miss]).filter (·.offset = miss.offset) =
      log.filter (·.offset = miss.offset) ++ [miss] := by
    simp
  unfold missedAt
  rw [hfilter, List.map_append, List.eraseDups_append]
  simp only [List.mem_eraseDups]
  by_cases hmem : miss.what ∈ (log.filter (·.offset = miss.offset)).map Miss.what
  · rw [if_pos hmem]
    simp [List.removeAll, hmem]
  · rw [if_neg hmem]
    simp [List.removeAll, hmem, List.eraseDups_cons]

theorem missedAt_concat_of_ne (log : List Miss) {miss : Miss} {offset : Nat}
    (hne : miss.offset ≠ offset) : missedAt (log ++ [miss]) offset = missedAt log offset := by
  unfold missedAt
  rw [List.filter_append, List.filter_singleton]
  simp [hne]

/-- Nothing is expected beyond the farthest offset. -/
theorem Recalls.missedAt_of_lt (h : c.Recalls log) {offset : Nat} (hlt : c.farthest < offset) :
    missedAt log offset = [] := by
  have hnone : log.filter (·.offset = offset) = [] := by
    refine List.filter_eq_nil_iff.2 fun miss hmem hat => ?_
    have hle := h.within miss hmem
    have hat : miss.offset = offset := of_decide_eq_true hat
    omega
  rw [missedAt, hnone]
  rfl

/-- A failure that is noted is remembered, unless one farther on is. -/
theorem Recalls.noteFailure (h : c.Recalls log) (what : String) :
    (c.noteFailure what).Recalls (log ++ [{ offset := c.offset, what }]) := by
  have hconcat := missedAt_concat log { offset := c.offset, what }
  unfold Cursor.noteFailure
  by_cases hfarther : c.farthest < c.offset
  · rw [if_pos hfarther]
    rw [h.missedAt_of_lt hfarther, if_neg List.not_mem_nil] at hconcat
    refine ⟨fun miss hmem => ?_, fun _ => ?_, hconcat.symm, List.nodup_singleton what⟩
    · rcases List.mem_append.1 hmem with hmem | hmem
      · exact Nat.le_trans (h.within miss hmem) (Nat.le_of_lt hfarther)
      · rw [List.mem_singleton.1 hmem]
    · exact ⟨_, List.mem_append_right _ (List.mem_singleton_self _), rfl⟩
  · rw [if_neg hfarther]
    have hwithin : ∀ miss ∈ log ++ [{ offset := c.offset, what }], miss.offset ≤ c.farthest := by
      intro miss hmem
      rcases List.mem_append.1 hmem with hmem | hmem
      · exact h.within miss hmem
      · rw [List.mem_singleton.1 hmem]
        exact Nat.le_of_not_lt hfarther
    have hreached : c.farthest ≠ 0 →
        ∃ miss ∈ log ++ [{ offset := c.offset, what }], miss.offset = c.farthest := by
      intro hne
      obtain ⟨miss, hmem, hat⟩ := h.reached hne
      exact ⟨miss, List.mem_append_left _ hmem, hat⟩
    by_cases hat : c.offset = c.farthest
    · simp only [hat] at hconcat
      rw [← h.expected] at hconcat
      by_cases hmem : what ∈ c.expected
      · rw [if_neg fun hnew => hnew.2 hmem]
        rw [if_pos hmem] at hconcat
        exact ⟨hwithin, hreached, by rw [hat]; exact hconcat.symm, h.nodup⟩
      · rw [if_pos ⟨hat, hmem⟩]
        rw [if_neg hmem] at hconcat
        refine ⟨hwithin, hreached, by rw [hat]; exact hconcat.symm, ?_⟩
        exact h.nodup.append (List.nodup_singleton what) (by simpa using hmem)
    · rw [if_neg fun hnew => hat hnew.1]
      refine ⟨hwithin, hreached, ?_, h.nodup⟩
      rw [missedAt_concat_of_ne log hat]
      exact h.expected

end Cursor

/-! ## 3. Steps of the scanner -/

namespace Source

/-- A step of the scanner that notes no failure. -/
def Silent (scan : Scan α) : Prop :=
  ∀ c a d, scan c = .ok a d → d.farthest = c.farthest ∧ d.expected = c.expected

theorem Silent.pure (a : α) : Silent (Pure.pure a) := by
  intro c b d h
  cases h
  exact ⟨rfl, rfl⟩

theorem Silent.bind {scan : Scan α} {next : α → Scan β} (h : Silent scan)
    (hnext : ∀ a, Silent (next a)) : Silent (scan >>= next) := by
  intro c b e hok
  obtain ⟨a, d, hs, hrest⟩ := bind_eq_ok.1 hok
  obtain ⟨hfarthest, hexpected⟩ := h c a d hs
  obtain ⟨hfarthest', hexpected'⟩ := hnext a d b e hrest
  exact ⟨hfarthest'.trans hfarthest, hexpected'.trans hexpected⟩

theorem Silent.advance (cs : List Char) : Silent (Cursor.advance cs) := by
  intro c a d h
  obtain ⟨_, rfl⟩ := Cursor.advance_eq_ok.1 h
  exact ⟨rfl, rfl⟩

theorem silent_rest (src : Source) : Silent src.rest := by
  intro c a d h
  rw [src.rest_eq] at h
  split at h
  · cases h
    exact ⟨rfl, rfl⟩
  · cases h

theorem silent_skip (src : Source) : Silent src.skip := by
  unfold Source.skip
  cases src.ignore with
  | none => exact .pure ()
  | some find =>
    refine (silent_rest src).bind fun cs => ?_
    cases find cs with
    | none => exact .pure ()
    | some found => exact .advance found.text

theorem silent_atEnd (src : Source) : Silent src.atEnd :=
  (silent_skip src).bind fun _ => (silent_rest src).bind fun _ => .pure _

/-- A step of the scanner that notes what was expected where nothing is found, and nothing else. -/
def Notes (what : String) (scan : Scan (Option α)) : Prop :=
  ∀ c found d, scan c = .ok found d → ∃ b : Cursor,
    (b.farthest = c.farthest ∧ b.expected = c.expected) ∧
      d = if found.isSome then b else b.noteFailure what

variable {what : String}

theorem Notes.after {scan : Scan α} {next : α → Scan (Option β)} (h : Silent scan)
    (hnext : ∀ a, Notes what (next a)) : Notes what (scan >>= next) := by
  intro c found e hok
  obtain ⟨a, d, hs, hrest⟩ := bind_eq_ok.1 hok
  obtain ⟨hfarthest, hexpected⟩ := h c a d hs
  obtain ⟨b, ⟨hfarthest', hexpected'⟩, hend⟩ := hnext a d found e hrest
  exact ⟨b, ⟨hfarthest'.trans hfarthest, hexpected'.trans hexpected⟩, hend⟩

theorem Notes.advance (cs : List Char) (a : α) : Notes what (do
    Cursor.advance cs
    return some a) := by
  intro c found d h
  obtain ⟨_, e, hadvance, hlast⟩ := bind_eq_ok.1 h
  cases hlast
  obtain ⟨_, rfl⟩ := Cursor.advance_eq_ok.1 hadvance
  exact ⟨c.moveTo (c.offset + Text.byteLength cs), ⟨rfl, rfl⟩, rfl⟩

theorem Notes.fail : Notes what (do
    Cursor.fail what
    return (none : Option α)) := by
  intro c found d h
  cases h
  exact ⟨c, ⟨rfl, rfl⟩, rfl⟩

theorem notes_literal (src : Source) (text : String) :
    Notes (Text.quote text) (src.literal text) := by
  unfold Source.literal
  refine .after (silent_skip src) fun _ => .after (silent_rest src) fun cs => ?_
  split
  · exact .advance _ _
  · exact .fail

theorem notes_pattern (src : Source) (find : Matcher) (shown : String) :
    Notes ("/" ++ shown ++ "/") (src.pattern find shown) := by
  unfold Source.pattern
  refine .after (silent_skip src) fun _ => .after (silent_rest src) fun cs => ?_
  split
  · exact .advance _ _
  · exact .fail

end Source

/-! ## 4. Steps of a run -/

namespace Run

/-- A step adds its misses to what the cursor remembers. -/
def Records (step : Run α) (misses : Misses) : Prop :=
  ∀ log s a t, s.cursor.Recalls log → step s = .ok a t → t.cursor.Recalls (log ++ misses s)

/-- A step adds its misses to what the cursor remembers, and finds nothing only if there are some or
    if an entity lay too deep. -/
structure Reports (step : Run (Option α)) (misses : Misses) : Prop where
  records : Records step misses
  tells : ∀ s t, step s = .ok none t → t.overflow = none → misses s ≠ []

/-- Looking for a token misses it where it fails. -/
theorem reports_scan {scan : Scan (Option (List Char))} {what : String}
    (h : Source.Notes what scan) : Reports (Run.scan scan) (.ofScan scan what) where
  records := by
    intro log s found t hs hok
    rw [Run.scan] at hok
    unfold Misses.ofScan
    cases hscan : scan s.cursor with
    | error f c => rw [hscan] at hok; cases hok
    | ok found' c =>
      rw [hscan] at hok
      cases hok
      obtain ⟨b, ⟨hfarthest, hexpected⟩, rfl⟩ := h s.cursor _ c hscan
      have hb : b.Recalls log := hs.congr hfarthest hexpected
      cases found with
      | none =>
        have hnoted := hb.noteFailure what
        rwa [← Cursor.offset_noteFailure b what] at hnoted
      | some text => rwa [List.append_nil]
  tells := by
    intro s t hok _
    rw [Run.scan] at hok
    unfold Misses.ofScan
    cases hscan : scan s.cursor with
    | error f c => rw [hscan] at hok; cases hok
    | ok found c =>
      rw [hscan] at hok
      cases hok
      exact List.cons_ne_nil _ _

section

variable {step next : Run (Option Assignments)} {first second : Misses}

/-- What is done with something that was found misses nothing and leaves the cursor alone. -/
theorem Reports.andThen {step : Run (Option α)} {misses : Misses} (h : Reports step misses)
    {next : Option α → Run (Option β)} (hnone : next none = Pure.pure none)
    (hsome : ∀ a s b t, next (some a) s = .ok b t → b.isSome ∧ t.cursor = s.cursor) :
    Reports (step >>= next) misses where
  records := by
    intro log s b t hs hok
    obtain ⟨found, u, hstep, hnext⟩ := bind_eq_ok.1 hok
    have hu := h.records log s found u hs hstep
    cases found with
    | none =>
      rw [hnone] at hnext
      cases hnext
      exact hu
    | some a => rwa [(hsome a u b t hnext).2]
  tells := by
    intro s t hok hdeep
    obtain ⟨found, u, hstep, hnext⟩ := bind_eq_ok.1 hok
    cases found with
    | none =>
      rw [hnone] at hnext
      cases hnext
      exact h.tells s t hstep hdeep
    | some a => cases (hsome a u none t hnext).1

/-- Following one step after the other misses what they do. -/
theorem Reports.both (h : Reports step first) (hnext : Reports next second) :
    Reports (do
      let some out ← step | return none
      let some more ← next | return none
      return some (out ++ more)) (.both step first second) where
  records := by
    intro log s found t hs hok
    obtain ⟨out, u, hstep, hrest⟩ := bind_eq_ok.1 hok
    have hu := h.records log s out u hs hstep
    unfold Misses.both
    rw [hstep]
    cases out with
    | none =>
      cases hrest
      rwa [List.append_nil]
    | some out =>
      obtain ⟨more, v, hmore, hlast⟩ := bind_eq_ok.1 hrest
      have hv := hnext.records _ u more v hu hmore
      rw [List.append_assoc] at hv
      cases more with
      | none => cases hlast; exact hv
      | some more => cases hlast; exact hv
  tells := by
    intro s t hok hdeep
    obtain ⟨out, u, hstep, hrest⟩ := bind_eq_ok.1 hok
    unfold Misses.both
    rw [hstep]
    cases out with
    | none =>
      cases hrest
      exact List.append_ne_nil_of_left_ne_nil (h.tells s t hstep hdeep) _
    | some out =>
      obtain ⟨more, v, hmore, hlast⟩ := bind_eq_ok.1 hrest
      cases more with
      | none =>
        cases hlast
        exact List.append_ne_nil_of_right_ne_nil _ (hnext.tells u t hmore hdeep)
      | some more => cases hlast

/-- Trying one step after the other misses what they do. -/
theorem Reports.either (h : Reports step first) (hnext : Reports next second) :
    Reports (do
      match ← step with
      | some out => return some out
      | none => next) (.either step first second) where
  records := by
    intro log s found t hs hok
    obtain ⟨out, u, hstep, hrest⟩ := bind_eq_ok.1 hok
    have hu := h.records log s out u hs hstep
    unfold Misses.either
    rw [hstep]
    cases out with
    | none =>
      have ht := hnext.records _ u found t hu hrest
      rwa [List.append_assoc] at ht
    | some out =>
      cases hrest
      rwa [List.append_nil]
  tells := by
    intro s t hok hdeep
    obtain ⟨out, u, hstep, hrest⟩ := bind_eq_ok.1 hok
    unfold Misses.either
    rw [hstep]
    cases out with
    | none => exact List.append_ne_nil_of_right_ne_nil _ (hnext.tells u t hrest hdeep)
    | some out => cases hrest

/-- Trying the last of several steps misses what it does. -/
theorem Reports.last (h : Reports step first) : Reports (do
      match ← step with
      | some out => return some out
      | none => return none) (.either step first fun _ => []) := by
  have hfirst : Misses.either step first (fun _ => []) = first := by
    funext s
    unfold Misses.either
    split <;> exact List.append_nil _
  rw [hfirst]
  refine h.andThen rfl fun a s b t hok => ?_
  cases hok
  exact ⟨rfl, rfl⟩

/-- All rounds of a repetition add their misses. -/
theorem Records.many (h : Records step first) (limit : Nat) {log : List Miss} {s : RunState}
    (hs : s.cursor.Recalls log) {out : Assignments} {t : RunState}
    (hok : repeated limit step s = .ok out t) :
    t.cursor.Recalls (log ++ Misses.many limit step first s) := by
  suffices hmany : ∀ out t, repeated limit step s = .ok out t → ∀ log, s.cursor.Recalls log →
      t.cursor.Recalls (log ++ Misses.many limit step first s) from hmany out t hok log hs
  apply repeated_induction
  case missed =>
    intro s u hrun log hs
    have hu := h log s none u hs hrun
    rw [Misses.many, hrun]
    simp only [List.append_nil]
    exact hu.congr rfl rfl
  case moved =>
    intro s found u more v hrun hmoved _ ih log hs
    have hv := ih _ (h log s (some found) u hs hrun)
    rw [Misses.many, hrun]
    simp only [if_pos hmoved]
    rwa [List.append_assoc] at hv
  case last =>
    intro s found u hrun hstop log hs
    have hu := h log s (some found) u hs hrun
    rw [Misses.many, hrun]
    simp only [if_neg hstop, List.append_nil]
    exact hu

/-- Doing a step as often as it is wanted misses what it does each time. -/
theorem Reports.marked (h : Reports step first) (limit : Nat) (mods : Modifiers) :
    Reports (modified limit mods step) (.marked limit mods step first) := by
  unfold Misses.marked
  cases hmods : mods.plural with
  | true =>
    rw [if_pos rfl]
    refine ⟨fun log s found t hs hok => ?_, fun s t hok _ => ?_⟩
    · rw [modified_plural step hmods] at hok
      cases hrun : repeated limit step s with
      | error f u => rw [hrun] at hok; cases hok
      | ok out u =>
        rw [hrun] at hok
        cases hok
        exact h.records.many limit hs hrun
    · rw [modified_plural step hmods] at hok
      cases hrun : repeated limit step s <;> rw [hrun] at hok <;> cases hok
  | false =>
    rw [if_neg Bool.false_ne_true]
    refine ⟨fun log s found t hs hok => ?_, fun s t hok hdeep => ?_⟩
    · rw [modified_single step hmods] at hok
      cases hrun : step s with
      | error f u => rw [hrun] at hok; cases hok
      | ok out u =>
        have hu := h.records log s out u hs hrun
        rw [hrun] at hok
        cases out with
        | none => cases hok; exact hu.congr rfl rfl
        | some out => cases hok; exact hu
    · rw [modified_single step hmods] at hok
      cases hrun : step s with
      | error f u => rw [hrun] at hok; cases hok
      | ok out u =>
        rw [hrun] at hok
        cases out with
        | none =>
          injection hok with _ hend
          rw [← hend] at hdeep
          exact h.tells s u hrun hdeep
        | some out => cases hok

end

end Run

/-! ## 5. Instructions -/

/-- Every chain in a plan has parts. -/
inductive Plan.Branched : Plan → Prop where
  | leaf (mods : Modifiers) (symbol : Symbol) (slot : Option Name) :
    Branched (.leaf mods symbol slot)
  | node (mods : Modifiers) (choice : Bool) {parts : List Plan} (hparts : parts ≠ [])
    (h : ∀ p ∈ parts, Branched p) : Branched (.node mods choice parts)

theorem Plan.Forked.branched {p : Plan} (h : p.Forked) : p.Branched := by
  induction h with
  | leaf mods symbol slot => exact .leaf _ _ _
  | node mods choice hparts _ ih =>
    exact .node _ _ (List.ne_nil_of_length_pos (Nat.lt_of_lt_of_le Nat.two_pos hparts)) ih

/-- Every chain of a rule has parts. -/
theorem Expr.branched_plan [Unicode.Xid] {entity : Name} (e : Expr) (place : Build.Place) :
    (e.plan entity place).Branched :=
  (e.forked_plan place).branched

section

variable {src : Source} {inner : Name → Run (Option (Option Value))} {missed : Name → Misses}
  {patterns : Patterns} {dest : Nat → Destination}

/-- Reading a token misses it, or what an entity misses. -/
theorem Symbol.reports (symbol : Symbol) (destination : Destination)
    (hinner : ∀ t ∈ symbol.target?.toList, Run.Reports (inner t) (missed t)) :
    Run.Reports ((symbol.token patterns).run src inner destination)
      ((symbol.token patterns).misses src missed) := by
  cases symbol with
  | literal text witness =>
    refine (Run.reports_scan (src.notes_literal text)).andThen rfl fun a s b t hok => ?_
    cases hok
    exact ⟨rfl, rfl⟩
  | pattern source =>
    refine (Run.reports_scan (src.notes_pattern _ source)).andThen rfl fun a s b t hok => ?_
    cases hok
    exact ⟨rfl, rfl⟩
  | reference target =>
    refine (hinner target (List.mem_singleton_self target)).andThen rfl fun a s b t hok => ?_
    cases hok
    exact ⟨rfl, rfl⟩

namespace Plan

mutual

/-- Following the instructions of a plan misses what the tokens and the entities do. -/
theorem Branched.reports {q : Nat} : ∀ {p : Plan}, p.Branched →
    (∀ t ∈ p.references, Run.Reports (inner t) (missed t)) →
      Run.Reports ((p.op patterns dest q).run src inner)
        ((p.op patterns dest q).misses src inner missed)
  | leaf mods symbol slot, _, hinner => by
    rw [op, Op.run, Op.misses]
    exact (symbol.reports _ hinner).marked src.size mods
  | node mods choice parts, h, hinner => by
    cases h with
    | node _ _ hparts h =>
      rw [op]
      cases choice with
      | true =>
        rw [if_pos rfl, Op.run, Op.misses]
        exact (reports_any hparts h hinner).marked src.size mods
      | false =>
        rw [if_neg Bool.false_ne_true, Op.run, Op.misses]
        exact (reports_all h hinner).marked src.size mods

theorem reports_all {q : Nat} : ∀ {ps : List Plan}, (∀ p ∈ ps, p.Branched) →
    (∀ t ∈ referencesOf ps, Run.Reports (inner t) (missed t)) →
      Run.Reports (runAll src inner (opsOf patterns dest q ps))
        (missesAll src inner missed (opsOf patterns dest q ps))
  | [], _, _ => by
    rw [opsOf, runAll, missesAll]
    refine ⟨fun log s found t hs hok => ?_, fun s t hok => ?_⟩
    · cases hok
      rwa [List.append_nil]
    · cases hok
  | p :: ps, h, hinner => by
    rw [opsOf, runAll, missesAll]
    have hp := h p List.mem_cons_self
    exact (hp.reports fun t ht => hinner t (List.mem_append_left _ ht)).both
      (reports_all (fun p hp => h p (List.mem_cons_of_mem _ hp)) fun t ht =>
        hinner t (List.mem_append_right _ ht))

theorem reports_any {q : Nat} : ∀ {ps : List Plan}, ps ≠ [] → (∀ p ∈ ps, p.Branched) →
    (∀ t ∈ referencesOf ps, Run.Reports (inner t) (missed t)) →
      Run.Reports (runAny src inner (opsOf patterns dest q ps))
        (missesAny src inner missed (opsOf patterns dest q ps))
  | [], hne, _, _ => absurd rfl hne
  | [p], _, h, hinner => by
    rw [opsOf, runAny, missesAny, opsOf, runAny, missesAny]
    have hp := h p List.mem_cons_self
    exact (hp.reports fun t ht => hinner t (List.mem_append_left _ ht)).last
  | p :: p' :: ps, _, h, hinner => by
    rw [opsOf, runAny, missesAny]
    have hp := h p List.mem_cons_self
    exact (hp.reports fun t ht => hinner t (List.mem_append_left _ ht)).either
      (reports_any (List.cons_ne_nil _ _) (fun p hp => h p (List.mem_cons_of_mem _ hp))
        fun t ht => hinner t (List.mem_append_right _ ht))

end

end Plan

end

/-! ## 6. Entities -/

/-- Events make no difference to what is missed. -/
theorem Run.Reports.told {step : Run (Option α)} {misses : Misses}
    (tell : RunState → Array Event) (h : Reports step misses) :
    Reports (fun s => step { s with events := tell s })
      fun s => misses { s with events := tell s } where
  records := fun log s a t hs hok => h.records log { s with events := tell s } a t hs hok
  tells := fun s t hok hdeep => h.tells { s with events := tell s } t hok hdeep

variable {g : Grammar} {engine : Engine} {m : Model} {config : ReadConfig} {p : Program}
  {patterns : Patterns}

namespace Program

variable {src : Source} {depth : Nat} {name : Name} {op : Op} {fields : List Field}
  {isVirtual : Checked Bool}

/-- Reading an entity follows its instruction, and puts its node together. -/
theorem entity_succ
    (h : p.procedure? name = some { body := some (.ok op), fields := .ok fields, isVirtual }) :
    p.entity src (depth + 1) name = fun s =>
      (do
        let some out ← op.run src (p.inner src depth) | return none
        return some (assemble name fields out) : Run (Option Node))
          { s with events := s.events.push (.entityTried name s.cursor.offset) } := by
  unfold entity
  rw [h]
  rfl

/-- Reading an entity misses what following its instruction does. -/
theorem misses_succ
    (h : p.procedure? name = some { body := some (.ok op), fields := .ok fields, isVirtual }) :
    p.misses src (depth + 1) name = fun s =>
      op.misses src (p.inner src depth) (p.misses src depth)
        { s with events := s.events.push (.entityTried name s.cursor.offset) } := by
  rw [misses]
  simp only [h]

end Program

/-- Reading an entity adds its misses to what the cursor remembers, and finds nothing only if there
    are some or if an entity lay too deep. -/
theorem Program.Made.reports_entity [Unicode.Xid] (hmade : p.Made engine m config patterns)
    (hreached : Build.Reached g m True) (src : Source) (depth : Nat) :
    ∀ name, g.Reachable name →
      Run.Reports (p.entity src depth name) (p.misses src depth name) := by
  induction depth with
  | zero =>
    refine fun name _ => ⟨fun log s found t hs hok => ?_, fun s t hok hdeep => ?_⟩
    · cases hok
      rw [Program.misses, List.append_nil]
      exact hs
    · cases hok
      simp at hdeep
  | succ depth ih =>
    intro name hname
    obtain ⟨rule, hrule⟩ := hreached.exists_rule hname
    obtain ⟨e, he⟩ := Model.mem_names_iff.1 ((hreached.rules.names name).2 ⟨rule, hrule⟩)
    obtain ⟨site, hsited⟩ := hreached.bodies trivial
    obtain ⟨proc, r, fields, hproc, hof⟩ := hmade.procedure_some hreached hsited he
    obtain rfl := Model.name_of_entity?_eq_some he
    have hbranched : (site e.name).plan.Branched := by
      rw [hof.plan]
      exact r.body.branched_plan .top
    have hinner : ∀ t ∈ (site e.name).plan.references,
        Run.Reports (p.inner src depth t) (p.misses src depth t) := by
      intro t ht
      rw [hof.plan, Expr.references_plan] at ht
      refine (ih t (hname.refers ⟨r, hof.rule, ht⟩)).andThen rfl fun n s b u hok => ?_
      obtain ⟨v, w, hvalue, hlast⟩ := bind_eq_ok.1 hok
      obtain ⟨isVirtual, hvirtual⟩ := hreached.isVirtual_ok n.entity
      rw [hmade.nodeValue_eq hvirtual] at hvalue
      cases hvalue
      cases hlast
      exact ⟨rfl, rfl⟩
    have hbody := hof.body
    have hfields := hof.fields_eq
    obtain ⟨body, listed, isVirtual⟩ := proc
    obtain rfl : body = _ := hbody
    obtain rfl : listed = _ := hfields
    rw [Program.entity_succ hproc, Program.misses_succ hproc]
    refine .told (fun s => s.events.push (.entityTried e.name s.cursor.offset)) ?_
    refine (hbranched.reports hinner).andThen rfl fun out s b t hok => ?_
    cases hok
    exact ⟨rfl, rfl⟩

/-! ## 7. Whole texts -/

/-- Of the failures of a run that has some, the farthest are remembered. -/
theorem Cursor.Recalls.exact {c : Cursor} {log : List Miss} (h : c.Recalls log) (hne : log ≠ []) :
    c.expected ≠ [] ∧ ∃ miss ∈ log, miss.offset = c.farthest := by
  have hreached : ∃ miss ∈ log, miss.offset = c.farthest := by
    by_cases hzero : c.farthest = 0
    · obtain ⟨miss, hmem⟩ := List.exists_mem_of_ne_nil log hne
      have hle := h.within miss hmem
      exact ⟨miss, hmem, by omega⟩
    · exact h.reached hzero
  obtain ⟨miss, hmem, hat⟩ := hreached
  refine ⟨List.ne_nil_of_mem (a := miss.what) ?_, miss, hmem, hat⟩
  rw [h.expected, missedAt, List.mem_eraseDups]
  exact List.mem_map_of_mem (List.mem_filter.2 ⟨hmem, by simpa using hat⟩)

/-- Where something is left, it comes behind what is passed over. -/
theorem Source.atEnd_eq_false {src : Source} {b c : Cursor} (h : src.atEnd b = .ok false c) :
    src.skip b = .ok () c ∧ ∃ rest, Text.dropBytes c.offset src.text = some rest ∧ rest ≠ [] := by
  obtain ⟨_, d, hskip, hrest⟩ := bind_eq_ok.1 h
  rw [src.rest_bind] at hrest
  cases hdrop : Text.dropBytes d.offset src.text with
  | none => rw [hdrop] at hrest; cases hrest
  | some rest =>
    rw [hdrop] at hrest
    injection hrest with hempty hend
    subst hend
    refine ⟨hskip, rest, hdrop, ?_⟩
    rintro rfl
    cases hempty

namespace Program

variable {s : RunState} {text : String} {entity : Name} {offset : Nat} {expected : List String}

/-- What does not match is refused with what is remembered. -/
theorem of_failure (h : p.failure s = .noMatch entity offset expected) :
    s.overflow = none ∧ s.cursor.farthest = offset ∧ s.cursor.expected = expected := by
  unfold failure at h
  cases hdeep : s.overflow with
  | some name => rw [hdeep] at h; cases h
  | none => rw [hdeep] at h; cases h; exact ⟨rfl, rfl, rfl⟩

theorem failure_ne_trailingInput : p.failure s ≠ .trailingInput offset := by
  unfold failure
  cases s.overflow <;> exact nofun

/-- A text is refused because its root was not found, or because something is left. -/
theorem of_refused {e : ReadError} (h : p.read text = .ok (.error e)) :
    (∃ s, p.entity (p.source text) (p.maxDepth + 1) p.root {} = .ok none s ∧ p.failure s = e) ∨
    ∃ node s c, p.entity (p.source text) (p.maxDepth + 1) p.root {} = .ok (some node) s ∧
      (p.source text).atEnd s.cursor = .ok false c ∧ p.refusal { s with cursor := c } = e := by
  have hread := h.symm.trans (p.read_eq text)
  generalize hsrc : ({ text := text.toList, ignore := p.ignore } : Source) = src at hread
  obtain rfl : p.source text = src := hsrc
  cases hrun : p.entity (p.source text) (p.maxDepth + 1) p.root {} with
  | error f s => rw [hrun] at hread; cases hread
  | ok found s =>
    rw [hrun] at hread
    cases found with
    | none => exact .inl ⟨s, rfl, (Except.error.inj (Except.ok.inj hread)).symm⟩
    | some node =>
      simp only at hread
      cases hend : (p.source text).atEnd s.cursor with
      | error f c => rw [hend] at hread; cases hread
      | ok atEnd c =>
        rw [hend] at hread
        cases atEnd with
        | true => cases hread
        | false =>
          exact .inr ⟨node, s, c, rfl, hend, (Except.error.inj (Except.ok.inj hread)).symm⟩

/-- A text that does not match is refused with what is remembered at the end of its root, which was
    not found or hides a failure beyond it. -/
theorem of_noMatch (h : p.read text = .ok (.error (.noMatch entity offset expected))) :
    ∃ found s, p.entity (p.source text) (p.maxDepth + 1) p.root {} = .ok found s ∧
      s.overflow = none ∧ s.cursor.farthest = offset ∧ s.cursor.expected = expected ∧
      (found = none ∨ 0 < offset) := by
  rcases of_refused h with ⟨s, hrun, hfailure⟩ | ⟨node, s, c, hrun, hend, hrefusal⟩
  · obtain ⟨hdeep, hoffset, hexpected⟩ := of_failure hfailure
    exact ⟨none, s, hrun, hdeep, hoffset, hexpected, .inl rfl⟩
  · obtain ⟨hfarthest, hexpected⟩ := Source.silent_atEnd _ s.cursor false c hend
    unfold refusal at hrefusal
    split at hrefusal
    · next hhidden =>
      obtain ⟨hdeep, rfl, rfl⟩ := of_failure hrefusal
      have hdeep : s.overflow = none := hdeep
      refine ⟨some node, s, hrun, hdeep, hfarthest.symm, hexpected.symm, .inr ?_⟩
      rcases hhidden with hsome | hbeyond
      · simp [hdeep] at hsome
      · exact Nat.zero_lt_of_lt hbeyond
    · cases hrefusal

/-- A text is refused for what comes after its root if that was found and nothing failed farther
    on. -/
theorem of_trailingInput (h : p.read text = .ok (.error (.trailingInput offset))) :
    ∃ node s c, p.entity (p.source text) (p.maxDepth + 1) p.root {} = .ok (some node) s ∧
      (p.source text).atEnd s.cursor = .ok false c ∧ c.offset = offset ∧ c.farthest ≤ offset := by
  rcases of_refused h with ⟨s, _, hfailure⟩ | ⟨node, s, c, hrun, hend, hrefusal⟩
  · exact absurd hfailure failure_ne_trailingInput
  · unfold refusal at hrefusal
    split at hrefusal
    · exact absurd hrefusal failure_ne_trailingInput
    · next hhidden =>
      cases hrefusal
      exact ⟨node, s, c, hrun, hend, rfl, Nat.le_of_not_lt fun hlt => hhidden (.inr hlt)⟩

end Program

/-- A text that does not match is refused with the farthest of all places where a token was looked
    for in vain, and with what was expected there, each once, in the order in which it first failed.
    A text that goes on after its root is refused with the place where that starts, and nothing
    failed beyond it. Branches that were given up count. -/
theorem refusals_exact [Unicode.Xid] {n : Nat} (hmodel : Model.ofGrammar g = .ok m)
    (hprogram : Program.ofModel engine m config = .ok (p, n)) (text : String) :
    let src := config.source engine text
    let log := p.misses src (config.maxDepth + 1) p.root {}
    (∀ entity offset expected, p.read text = .ok (.error (.noMatch entity offset expected)) →
      expected ≠ [] ∧ expected.Nodup ∧ expected = missedAt log offset ∧
      (∃ miss ∈ log, miss.offset = offset) ∧ ∀ miss ∈ log, miss.offset ≤ offset) ∧
    ∀ offset, p.read text = .ok (.error (.trailingInput offset)) →
      (∃ node s c, p.entity src (config.maxDepth + 1) p.root {} = .ok (some node) s ∧
        src.skip s.cursor = .ok () c ∧ c.offset = offset) ∧
      (∃ rest, Text.dropBytes offset text.toList = some rest ∧ rest ≠ []) ∧
      ∀ miss ∈ log, miss.offset ≤ offset := by
  intro src log
  have hreached := (Build.reached_ofGrammar hmodel).1
  obtain ⟨patterns, hmade⟩ := Program.made_of_ofModel hprogram
  have hroot : g.Reachable p.root := by
    obtain ⟨root, hsome, hname⟩ := Option.map_eq_some_iff.1 (hreached.rules.root ▸ hmade.root)
    exact ⟨root, hsome, hname ▸ .refl⟩
  have hreports := hmade.reports_entity hreached src (config.maxDepth + 1) p.root hroot
  have hrecalls : ∀ found s, p.entity src (config.maxDepth + 1) p.root {} = .ok found s →
      s.cursor.Recalls log := fun found s hrun =>
    hreports.records [] {} found s Cursor.recalls_empty hrun
  have hsource : p.source text = src := hmade.source_eq text
  constructor
  · intro entity offset expected hrefused
    obtain ⟨found, s, hrun, hdeep, rfl, rfl, hfailed⟩ := Program.of_noMatch hrefused
    rw [hsource, hmade.maxDepth] at hrun
    have hs := hrecalls found s hrun
    have hne : log ≠ [] := by
      rcases hfailed with rfl | hpos
      · exact hreports.tells {} s hrun hdeep
      · obtain ⟨miss, hmem, _⟩ := hs.reached (by omega)
        exact List.ne_nil_of_mem hmem
    obtain ⟨hexpected, hat⟩ := hs.exact hne
    exact ⟨hexpected, hs.nodup, hs.expected, hat, hs.within⟩
  · intro offset hrefused
    obtain ⟨node, s, c, hrun, hend, rfl, hle⟩ := Program.of_trailingInput hrefused
    rw [hsource] at hend
    rw [hsource, hmade.maxDepth] at hrun
    obtain ⟨hfarthest, hexpected⟩ := Source.silent_atEnd src s.cursor false c hend
    have hc : c.Recalls log := (hrecalls _ s hrun).congr hfarthest hexpected
    obtain ⟨hskip, hrest⟩ := Source.atEnd_eq_false hend
    exact ⟨⟨node, s, c, hrun, hskip, rfl⟩, hrest,
      fun miss hmem => Nat.le_trans (hc.within miss hmem) hle⟩

/-- A mark without its end is what is wrong with a list, though a word was looked for before it. A
    list that ends where neither a word nor a mark begins is followed by something else. -/
theorem refusals_exact_sample :
    Model.ofGrammar Sample.grammar = .ok Sample.model ∧
    Program.ofModel Sample.engine Sample.model Sample.config = .ok (Sample.program, 0) ∧
    Sample.program.read "ac" = .ok (.error (.noMatch "list" 2 ["\"d\""])) ∧
    Sample.program.misses (Sample.config.source Sample.engine "ac") 257 "list" {} =
      [⟨1, "\"a\""⟩, ⟨2, "\"d\""⟩] ∧
    ["\"d\""] = missedAt
      (Sample.program.misses (Sample.config.source Sample.engine "ac") 257 "list" {}) 2 ∧
    Sample.program.read "x" = .ok (.error (.trailingInput 0)) ∧
    (∃ rest, Text.dropBytes 0 "x".toList = some rest ∧ rest ≠ []) := by
  have hmatch : Sample.program.read "ac" = .ok (.error (.noMatch "list" 2 ["\"d\""])) := by
    decide +kernel
  have hleft : Sample.program.read "x" = .ok (.error (.trailingInput 0)) := by
    decide +kernel
  obtain ⟨_, _, hexpected, _⟩ :=
    (refusals_exact Sample.ofGrammar_eq Sample.ofModel_eq "ac").1 _ _ _ hmatch
  obtain ⟨_, hrest, _⟩ := (refusals_exact Sample.ofGrammar_eq Sample.ofModel_eq "x").2 _ hleft
  refine ⟨Sample.ofGrammar_eq, Sample.ofModel_eq, hmatch, ?_, hexpected, hleft, hrest⟩
  decide +kernel

end Ebnf
