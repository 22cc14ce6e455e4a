import Ebnf.Proofs.Again
import Ebnf.Proofs.Faults

/-!
# Space at the start of a text

A text is read, or refused, in the same way with more space at its start, where spaces may be passed
over as many as there are: all offsets are larger by the length of what was added. The two runs keep
in step. As long as nothing has been read, both cursors may stand at the start; from the first token
on, what was added lies between them. A repetition may have one more round then: one that has read
nothing has passed over what was added. This round finds what the one before it has found, and
leaves nothing new to be remembered.

* `Matcher.greedy`: spaces, as many as there are;
* `Cursor.Lags`, `Cursor.Trails`, `RunState.Lags`: where the two runs stand;
* `Run.Simulates`: steps that keep them in step;
* `Program.simulates_entity`: reading an entity does;
* `read_leading_space`: whole texts.
-/

namespace Ebnf

variable {α β : Type} {k : Nat}

/-! ## 1. Where two runs stand -/

/-- Finds characters of a kind at the start of a text, one or more, as many as there are. -/
def Matcher.greedy (space : Char → Bool) : Matcher := fun cs =>
  match cs.takeWhile space with
  | [] => none
  | front => some { start := 0, text := front }

namespace Matcher

/-- They are found at the start. -/
theorem start_of_greedy {space : Char → Bool} {cs : List Char} {found : Match}
    (h : greedy space cs = some found) : found.start = 0 := by
  unfold greedy at h
  split at h
  · cases h
  · cases h
    rfl

/-- They stand where they are found. -/
theorem sound_greedy (space : Char → Bool) : (greedy space).Sound := by
  intro cs found hfound
  refine ⟨[], cs.dropWhile space, ?_, (start_of_greedy hfound).symm⟩
  unfold greedy at hfound
  cases hfront : cs.takeWhile space with
  | nil =>
    rw [hfront] at hfound
    cases hfound
  | cons c rest =>
    rw [hfront] at hfound
    cases hfound
    rw [List.nil_append, ← hfront, List.takeWhile_append_dropWhile]

end Matcher

/-- A cursor in a text, and one in the text with `k` more bytes of space at its start: both stand at
    the start, or the second one at the same place. Both remember the same failures. -/
structure Cursor.Lags (k : Nat) (c c' : Cursor) : Prop where
  offset : c'.offset = c.offset + k ∨ (c.offset = 0 ∧ c'.offset = 0)
  farthest : c'.farthest = c.farthest + k ∨
    (c.expected = [] ∧ c.farthest = 0 ∧ c'.farthest = 0)
  expected : c'.expected = c.expected

/-- What was added lies between the two cursors. -/
structure Cursor.Trails (k : Nat) (c c' : Cursor) : Prop extends c.Lags k c' where
  past : c'.offset = c.offset + k

/-- Two runs stand as their cursors do, and the same entity has been too deep first. -/
structure RunState.Lags (k : Nat) (s s' : RunState) : Prop where
  cursor : s.cursor.Lags k s'.cursor
  overflow : s'.overflow = s.overflow

namespace RunState.Lags

variable {s s' t t' u : RunState}

/-- Neither run has begun. -/
theorem empty : RunState.Lags k {} {} :=
  ⟨⟨.inr ⟨rfl, rfl⟩, .inr ⟨rfl, rfl, rfl⟩, rfl⟩, rfl⟩

/-- Both runs go back to where they stood. -/
theorem undone (hs : s.Lags k s') (ht : t.Lags k t') :
    RunState.Lags k { t with cursor := t.cursor.moveTo s.cursor.offset }
      { t' with cursor := t'.cursor.moveTo s'.cursor.offset } :=
  ⟨⟨hs.cursor.offset, ht.cursor.farthest, ht.cursor.expected⟩, ht.overflow⟩

/-- Nothing but what is remembered and the offset of the cursor counts. -/
theorem of_agrees (h : u.Lags k s') (hagrees : u.Agrees t)
    (hoffset : u.cursor.offset = t.cursor.offset) : t.Lags k s' where
  cursor := by
    refine ⟨?_, ?_, ?_⟩
    · rw [← hoffset]
      exact h.cursor.offset
    · rw [← hagrees.farthest, ← hagrees.expected]
      exact h.cursor.farthest
    · rw [← hagrees.expected]
      exact h.cursor.expected
  overflow := hagrees.overflow ▸ h.overflow

end RunState.Lags

namespace Cursor

variable {c c' : Cursor}

theorem Trails.advance (h : c.Trails k c') (n : Nat) :
    (c.moveTo (c.offset + n)).Trails k (c'.moveTo (c'.offset + n)) := by
  have hpast : c'.offset + n = c.offset + n + k := by
    have := h.past
    omega
  exact { h with offset := .inl hpast, past := hpast }

/-- The first failure is remembered wherever it is. -/
theorem noteFailure_first (hnone : c.expected = []) (hzero : c.farthest = 0) (what : String) :
    (c.noteFailure what).farthest = c.offset ∧ (c.noteFailure what).expected = [what] := by
  unfold noteFailure
  by_cases hstart : 0 < c.offset
  · rw [if_pos (hzero ▸ hstart)]
    exact ⟨rfl, rfl⟩
  · have hat : c.offset = c.farthest := by omega
    have hnew : what ∉ c.expected := hnone ▸ List.not_mem_nil
    rw [if_neg (hzero ▸ hstart), if_pos ⟨hat, hnew⟩, hnone]
    exact ⟨hat.symm, rfl⟩

/-- A failure is noted in the same way by both cursors. -/
theorem Trails.noteFailure (h : c.Trails k c') (what : String) :
    (c.noteFailure what).Trails k (c'.noteFailure what) := by
  have hpast : (c'.noteFailure what).offset = (c.noteFailure what).offset + k := by
    rw [offset_noteFailure, offset_noteFailure]
    exact h.past
  have hoffset := h.past
  have hexpected := h.expected
  rcases h.farthest with hfarthest | ⟨hnone, hzero, hzero'⟩
  · have hmemory : (c'.noteFailure what).farthest = (c.noteFailure what).farthest + k ∧
        (c'.noteFailure what).expected = (c.noteFailure what).expected := by
      have hfarther : c'.farthest < c'.offset ↔ c.farthest < c.offset := by omega
      have hat : c'.offset = c'.farthest ↔ c.offset = c.farthest := by omega
      unfold Cursor.noteFailure
      simp only [hfarther, hat, hexpected]
      split
      · exact ⟨hoffset, rfl⟩
      · split
        · exact ⟨hfarthest, rfl⟩
        · exact ⟨hfarthest, hexpected⟩
    exact ⟨⟨.inl hpast, .inl hmemory.1, hmemory.2⟩, hpast⟩
  · obtain ⟨hreached, hwhat⟩ := noteFailure_first hnone hzero what
    obtain ⟨hreached', hwhat'⟩ := noteFailure_first (hexpected.trans hnone) hzero' what
    exact ⟨⟨.inl hpast, .inl (by rw [hreached, hreached', hoffset]), by rw [hwhat, hwhat']⟩, hpast⟩

end Cursor

/-! ## 2. Reading at the cursor -/

namespace Source

/-- A text, and the same with more space at its start. Spaces may be passed over in both. -/
structure Led (src src' : Source) (space : Char → Bool) (front : List Char) : Prop where
  ignore : src.ignore = some (.greedy space)
  ignore' : src'.ignore = some (.greedy space)
  text : src'.text = front ++ src.text
  spaces : ∀ c ∈ front, space c = true
  short : src'.size < UInt32.size

variable {src src' : Source} {space : Char → Bool} {front : List Char}

theorem Led.size_eq (h : src.Led src' space front) :
    src'.size = src.size + Text.byteLength front := by
  rw [src'.size_eq, src.size_eq, h.text, Text.byteLength_append, Nat.add_comm]

/-- Where spaces may be passed over, they are found where they stand. -/
theorem readable_of_greedy (hignore : src.ignore = some (.greedy space))
    (hshort : src.size < UInt32.size) : src.Readable where
  short := hshort
  passes := by
    intro find hfind
    obtain rfl := Option.some.inj (hignore.symm.trans hfind)
    exact Matcher.sound_greedy space

theorem Led.readable (h : src.Led src' space front) : src.Readable := by
  refine readable_of_greedy h.ignore ?_
  have hsize := h.size_eq
  have hshort := h.short
  omega

theorem Led.readable' (h : src.Led src' space front) : src'.Readable :=
  readable_of_greedy h.ignore' h.short

/-- All spaces are passed over. -/
theorem skip_greedy (hreadable : src.Readable) {c : Cursor} {cs : List Char}
    (hignore : src.ignore = some (.greedy space))
    (hcs : Text.dropBytes c.offset src.text = some cs) :
    src.skip c = .ok () (c.moveTo (c.offset + Text.byteLength (cs.takeWhile space))) := by
  cases hfront : cs.takeWhile space with
  | nil =>
    rw [skip_eq hignore hcs, Matcher.greedy, hfront]
    rfl
  | cons b bs =>
    have hfound : Matcher.greedy space cs = some { start := 0, text := b :: bs } := by
      rw [Matcher.greedy, hfront]
    exact hreadable.skip_eq hignore hcs hfound

/-- What is read comes behind all spaces. -/
theorem skip_greedy_bind (hreadable : src.Readable) {c : Cursor} {cs : List Char}
    (hignore : src.ignore = some (.greedy space))
    (hcs : Text.dropBytes c.offset src.text = some cs) (next : List Char → Scan α) :
    (src.skip >>= fun _ => src.rest >>= next) c =
      next (cs.dropWhile space)
        (c.moveTo (c.offset + Text.byteLength (cs.takeWhile space))) := by
  have hrest : Text.dropBytes (c.offset + Text.byteLength (cs.takeWhile space)) src.text =
      some (cs.dropWhile space) := by
    have hsplit := Text.dropBytes_byteLength_append (cs.takeWhile space) (cs.dropWhile space)
    rw [List.takeWhile_append_dropWhile] at hsplit
    rw [Text.dropBytes_add hcs, hsplit]
  rw [skip_bind (skip_greedy hreadable hignore hcs), hrest]

/-- Where a text cannot be cut, nothing can be passed over. -/
theorem skip_greedy_error {c : Cursor} (hignore : src.ignore = some (.greedy space))
    (hcs : Text.dropBytes c.offset src.text = none) (next : List Char → Scan α) :
    (src.skip >>= fun _ => src.rest >>= next) c = .error (.noBoundary c.offset) c := by
  have hskip : src.skip c = .error (.noBoundary c.offset) c := by
    unfold skip
    simp only [hignore, src.rest_bind, hcs]
  rw [bind_apply, hskip]

/-- The same is read in both texts, from cursors between which lies what was added, unless the
    longer text ends in a fault. Its offsets may run out before those of the other one do. -/
inductive Alike (k : Nat) :
    EStateM.Result Fault Cursor α → EStateM.Result Fault Cursor α → Prop where
  | ok (a : α) {d d' : Cursor} (h : d.Trails k d') : Alike k (.ok a d) (.ok a d')
  | fault (r : EStateM.Result Fault Cursor α) (f : Fault) (d' : Cursor) : Alike k r (.error f d')

/-- Both cursors move by the same length. -/
theorem Alike.advance {c c' : Cursor} (h : c.Trails k c') (cs : List Char) (a : α) :
    Alike k ((do
      Cursor.advance cs
      return a : Scan α) c) ((do
      Cursor.advance cs
      return a : Scan α) c') := by
  have hpast := h.past
  by_cases hroom' : c'.offset + Text.byteLength cs < UInt32.size
  · have hroom : c.offset + Text.byteLength cs < UInt32.size := by omega
    rw [bind_of_ok (Cursor.advance_eq_ok.2 ⟨hroom, rfl⟩),
      bind_of_ok (Cursor.advance_eq_ok.2 ⟨hroom', rfl⟩)]
    exact .ok a (h.advance _)
  · rw [bind_apply (s := c'), Cursor.advance_eq, if_neg hroom']
    exact .fault ..

/-- Behind the spaces, the rest is the same in both texts. -/
theorem Led.after_skip (h : src.Led src' space front) {next : List Char → Scan α}
    (hnext : ∀ cs d d', d.Trails (Text.byteLength front) d' →
      Alike (Text.byteLength front) (next cs d) (next cs d')) {c c' : Cursor}
    (hc : c.Lags (Text.byteLength front) c') :
    Alike (Text.byteLength front) ((src.skip >>= fun _ => src.rest >>= next) c)
      ((src'.skip >>= fun _ => src'.rest >>= next) c') := by
  rcases hc.offset with hpast | ⟨hzero, hzero'⟩
  · have hrest : Text.dropBytes c'.offset src'.text = Text.dropBytes c.offset src.text := by
      rw [h.text, hpast, Nat.add_comm]
      exact Text.dropBytes_add (Text.dropBytes_byteLength_append front src.text)
    cases hcs : Text.dropBytes c.offset src.text with
    | none =>
      rw [skip_greedy_error h.ignore hcs, skip_greedy_error h.ignore' (hrest.trans hcs)]
      exact .fault ..
    | some cs =>
      rw [skip_greedy_bind h.readable h.ignore hcs,
        skip_greedy_bind h.readable' h.ignore' (hrest.trans hcs)]
      exact hnext _ _ _ (Cursor.Trails.advance ⟨hc, hpast⟩ _)
  · -- the spaces at the start of the longer text are those that were added, and the others
    have hcs : Text.dropBytes c.offset src.text = some src.text := by
      rw [hzero, Text.dropBytes_zero]
    have hcs' : Text.dropBytes c'.offset src'.text = some (front ++ src.text) := by
      rw [hzero', Text.dropBytes_zero, h.text]
    rw [skip_greedy_bind h.readable h.ignore hcs, skip_greedy_bind h.readable' h.ignore' hcs',
      List.takeWhile_append_of_pos h.spaces, List.dropWhile_append_of_pos h.spaces,
      Text.byteLength_append, hzero, hzero', Nat.zero_add, Nat.zero_add]
    have hpast : Text.byteLength front + Text.byteLength (src.text.takeWhile space) =
        Text.byteLength (src.text.takeWhile space) + Text.byteLength front := Nat.add_comm _ _
    exact hnext _ _ _ { hc with offset := .inl hpast, past := hpast }

theorem Led.literal (h : src.Led src' space front) (text : String) {c c' : Cursor}
    (hc : c.Lags (Text.byteLength front) c') :
    Alike (Text.byteLength front) (src.literal text c) (src'.literal text c') := by
  refine h.after_skip (fun cs d d' hd => ?_) hc
  by_cases hprefix : text.toList.isPrefixOf cs
  · simp only [if_pos hprefix]
    exact .advance hd _ _
  · simp only [if_neg hprefix]
    exact .ok _ (hd.noteFailure _)

theorem Led.pattern (h : src.Led src' space front) (find : Matcher) (shown : String)
    {c c' : Cursor} (hc : c.Lags (Text.byteLength front) c') :
    Alike (Text.byteLength front) (src.pattern find shown c) (src'.pattern find shown c') := by
  refine h.after_skip (fun cs d d' hd => ?_) hc
  cases hfound : find cs with
  | none => exact .ok _ (hd.noteFailure _)
  | some place =>
    obtain ⟨start, found⟩ := place
    cases start with
    | zero => exact .advance hd _ _
    | succ start => exact .ok _ (hd.noteFailure _)

theorem Led.atEnd (h : src.Led src' space front) {c c' : Cursor}
    (hc : c.Lags (Text.byteLength front) c') :
    Alike (Text.byteLength front) (src.atEnd c) (src'.atEnd c') := by
  have hnext : ∀ (cs : List Char) d d', d.Trails (Text.byteLength front) d' →
      Alike (Text.byteLength front) ((pure cs.isEmpty : Scan Bool) d)
        ((pure cs.isEmpty : Scan Bool) d') :=
    fun _ _ _ hd => .ok _ hd
  exact h.after_skip hnext hc

end Source

/-! ## 3. Steps of a run -/

namespace Run

/-- Two runs both find something, or both do not, and stand as before, unless the second one ends in
    a fault. -/
inductive Alike (k : Nat) : EStateM.Result Fault RunState (Option α) →
    EStateM.Result Fault RunState (Option β) → Prop where
  | missed {t t' : RunState} (h : t.Lags k t') : Alike k (.ok none t) (.ok none t')
  | found (a : α) (b : β) {t t' : RunState} (h : t.Lags k t') :
    Alike k (.ok (some a) t) (.ok (some b) t')
  | fault (r : EStateM.Result Fault RunState (Option α)) (f : Fault) (t' : RunState) :
    Alike k r (.error f t')

/-- Two repetitions both end well, and stand as before, unless the second one ends in a fault. -/
inductive Ends (k : Nat) : EStateM.Result Fault RunState Assignments →
    EStateM.Result Fault RunState Assignments → Prop where
  | ok (out out' : Assignments) {t t' : RunState} (h : t.Lags k t') :
    Ends k (.ok out t) (.ok out' t')
  | fault (r : EStateM.Result Fault RunState Assignments) (f : Fault) (t' : RunState) :
    Ends k r (.error f t')

/-- Two steps that keep two runs in step. -/
def Simulates (k : Nat) (step : Run (Option α)) (step' : Run (Option β)) : Prop :=
  ∀ s s', s.Lags k s' → Alike k (step s) (step' s')

namespace Simulates

theorem missed : Simulates k (pure none : Run (Option α)) (pure none : Run (Option β)) :=
  fun _ _ hs => .missed hs

theorem found (a : α) (b : β) : Simulates k (pure (some a)) (pure (some b)) :=
  fun _ _ hs => .found a b hs

/-- Where the first of two steps finds something, so does the second one, or ends in a fault, -/
theorem found_or_fault {step : Run (Option α)} {step' : Run (Option β)}
    (h : Simulates k step step') {s t s' : RunState} {a : α} (hlags : s.Lags k s')
    (hs : step s = .ok (some a) t) :
    (∃ b t', step' s' = .ok (some b) t' ∧ t.Lags k t') ∨ ∃ f t', step' s' = .error f t' := by
  have hstep := h s s' hlags
  rw [hs] at hstep
  generalize step' s' = r' at hstep ⊢
  cases hstep with
  | found _ b ht => exact .inl ⟨b, _, rfl, ht⟩
  | fault _ f t' => exact .inr ⟨f, t', rfl⟩

/-- and where it finds nothing, neither does the second one. -/
theorem missed_or_fault {step : Run (Option α)} {step' : Run (Option β)}
    (h : Simulates k step step') {s t s' : RunState} (hlags : s.Lags k s')
    (hs : step s = .ok none t) :
    (∃ t', step' s' = .ok none t' ∧ t.Lags k t') ∨ ∃ f t', step' s' = .error f t' := by
  have hstep := h s s' hlags
  rw [hs] at hstep
  generalize step' s' = r' at hstep ⊢
  cases hstep with
  | missed ht => exact .inl ⟨_, rfl, ht⟩
  | fault _ f t' => exact .inr ⟨f, t', rfl⟩

theorem check {γ : Type} {x : Checked γ} {next : γ → Run (Option α)} {next' : γ → Run (Option β)}
    (h : ∀ a, Simulates k (next a) (next' a)) :
    Simulates k (Run.check x >>= next) (Run.check x >>= next') := by
  cases x with
  | ok a => exact h a
  | error f => exact fun _ _ _ => .fault ..

/-- Events make no difference. -/
theorem told {step : Run (Option α)} {step' : Run (Option β)} (tell tell' : RunState → Array Event)
    (h : Simulates k step step') :
    Simulates k (fun s => step { s with events := tell s })
      fun s => step' { s with events := tell' s } := fun s s' hs =>
  h { s with events := tell s } { s' with events := tell' s' } ⟨hs.cursor, hs.overflow⟩

theorem scan {step step' : Scan (Option α)}
    (h : ∀ c c', c.Lags k c' → Source.Alike k (step c) (step' c')) :
    Simulates k (Run.scan step) (Run.scan step') := by
  intro s s' hs
  have hstep := h s.cursor s'.cursor hs.cursor
  unfold Run.scan
  generalize step s.cursor = r, step' s'.cursor = r' at hstep
  cases hstep with
  | ok a hd =>
    cases a with
    | none => exact .missed ⟨hd.toLags, hs.overflow⟩
    | some a => exact .found a a ⟨hd.toLags, hs.overflow⟩
  | fault => exact .fault ..

theorem bind {γ δ : Type} {step : Run (Option α)} {step' : Run (Option β)}
    (h : Simulates k step step')
    {next : Option α → Run (Option γ)} {next' : Option β → Run (Option δ)}
    (hnone : Simulates k (next none) (next' none))
    (hsome : ∀ a b, Simulates k (next (some a)) (next' (some b))) :
    Simulates k (step >>= next) (step' >>= next') := by
  intro s s' hs
  have hstep := h s s' hs
  rw [bind_apply, bind_apply]
  generalize step s = r, step' s' = r' at hstep
  cases hstep with
  | missed ht => exact hnone _ _ ht
  | found a b ht => exact hsome a b _ _ ht
  | fault => exact .fault ..

section

variable {step step' next next' : Run (Option Assignments)}

theorem both (h : Simulates k step step') (hnext : Simulates k next next') : Simulates k (do
    let some out ← step | return none
    let some more ← next | return none
    return some (out ++ more)) (do
    let some out ← step' | return none
    let some more ← next' | return none
    return some (out ++ more)) :=
  h.bind .missed fun _ _ => hnext.bind .missed fun _ _ => .found _ _

theorem either (h : Simulates k step step') (hnext : Simulates k next next') : Simulates k (do
    match ← step with
    | some out => return some out
    | none => next) (do
    match ← step' with
    | some out => return some out
    | none => next') :=
  h.bind hnext fun _ _ => .found _ _

end

end Simulates

/-- Where the first of two steps moves the cursor, so does the second one. -/
theorem moved_of_moved {limit : Nat} {s t s' t' : RunState} (hs : s.Lags k s') (ht : t.Lags k t')
    (hmoved : s.cursor.offset < t.cursor.offset ∧ t.cursor.offset ≤ limit) :
    s'.cursor.offset < t'.cursor.offset ∧ t'.cursor.offset ≤ limit + k := by
  have := hs.cursor.offset
  have := ht.cursor.offset
  omega

/-- Where only the second one does, the first one has stayed at the start, and the second one has
    passed over what was added. -/
theorem stays_of_moved {limit : Nat} {s t s' t' : RunState} (hs : s.Lags k s') (ht : t.Lags k t')
    (hstop : ¬ (s.cursor.offset < t.cursor.offset ∧ t.cursor.offset ≤ limit))
    (hmoved : s'.cursor.offset < t'.cursor.offset ∧ t'.cursor.offset ≤ limit + k) :
    s.cursor.offset = 0 ∧ t.cursor.offset = 0 ∧ t'.cursor.offset = k := by
  have := hs.cursor.offset
  have := ht.cursor.offset
  omega

namespace Simulates

variable {step step' : Run (Option Assignments)}

/-- A round that has stayed at the start is followed by another one in the second run, which finds
    the same and ends the repetition. -/
theorem once_more (h : Simulates k step step') (hstable : Stable step) (limit : Nat)
    {s t t' : RunState} {out : Assignments} (hs : step s = .ok (some out) t)
    (hstart : s.cursor.offset = 0) (hstay : t.cursor.offset = 0) (ht : t.Lags k t')
    (hpast : t'.cursor.offset = k) :
    Ends k (.ok out t) (Ebnf.repeated limit step' t') := by
  obtain ⟨u, hu, hoffset, hagrees⟩ :=
    hstable.again s _ t hs t (hstay.trans hstart.symm) (.refl t)
  rcases h.found_or_fault ht hu with ⟨out', u', hu', hlags⟩ | ⟨f, u', hu'⟩
  · have hat := hlags.cursor.offset
    have hstop : ¬ (t'.cursor.offset < u'.cursor.offset ∧ u'.cursor.offset ≤ limit) := by omega
    rw [repeated_last hu' hstop]
    exact .ok _ _ (hlags.of_agrees hagrees hoffset)
  · rw [repeated_fault hu']
    exact .fault ..

/-- Where both runs go on after a round, the others are in step if they were from there. -/
theorem onward (h : Simulates k step step') {limit : Nat} {s t : RunState} {first : Assignments}
    (hs : step s = .ok (some first) t)
    (hmoved : s.cursor.offset < t.cursor.offset ∧ t.cursor.offset ≤ limit)
    (hrest : ∀ t', t.Lags k t' →
      Ends k (Ebnf.repeated limit step t) (Ebnf.repeated (limit + k) step' t')) :
    ∀ s', s.Lags k s' →
      Ends k (Ebnf.repeated limit step s) (Ebnf.repeated (limit + k) step' s') := by
  intro s' hlags
  rcases h.found_or_fault hlags hs with ⟨first', t', hs', ht⟩ | ⟨f, t', hs'⟩
  · have hrounds := hrest t' ht
    rw [repeated_moved hs hmoved, repeated_moved hs' (moved_of_moved hlags ht hmoved)]
    generalize Ebnf.repeated limit step t = r, Ebnf.repeated (limit + k) step' t' = r' at hrounds
    cases hrounds with
    | ok more more' hu => exact .ok _ _ hu
    | fault => exact .fault ..
  · rw [repeated_fault hs']
    exact .fault ..

/-- Repetitions are in step. -/
theorem repeated (h : Simulates k step step') (hstable : Stable step) (limit : Nat)
    (s : RunState) : ∀ s', s.Lags k s' →
      Ends k (Ebnf.repeated limit step s) (Ebnf.repeated (limit + k) step' s') := by
  induction s using repeated.induct limit step with
  | case1 s f t hs =>
    intro s' hlags
    have hround := h s s' hlags
    rw [hs] at hround
    generalize hs' : step' s' = r' at hround
    cases hround
    rw [repeated_fault hs, repeated_fault hs']
    exact .fault ..
  | case2 s t hs =>
    intro s' hlags
    rcases h.missed_or_fault hlags hs with ⟨t', hs', ht⟩ | ⟨f, t', hs'⟩
    · rw [repeated_missed hs, repeated_missed hs']
      exact .ok _ _ (hlags.undone ht)
    · rw [repeated_fault hs']
      exact .fault ..
  | case3 s first t hs hmoved more u hmore ih => exact h.onward hs hmoved ih
  | case4 s first t hs hmoved f u hmore ih => exact h.onward hs hmoved ih
  | case5 s first t hs hstop =>
    intro s' hlags
    rw [repeated_last hs hstop]
    rcases h.found_or_fault hlags hs with ⟨first', t', hs', ht⟩ | ⟨f, t', hs'⟩
    · by_cases hmoved' : s'.cursor.offset < t'.cursor.offset ∧ t'.cursor.offset ≤ limit + k
      · obtain ⟨hstart, hstay, hpast⟩ := stays_of_moved hlags ht hstop hmoved'
        have hmore := h.once_more hstable (limit + k) hs hstart hstay ht hpast
        rw [repeated_moved hs' hmoved']
        generalize Ebnf.repeated (limit + k) step' t' = r' at hmore
        cases hmore with
        | ok _ _ hu => exact .ok _ _ hu
        | fault => exact .fault ..
      · rw [repeated_last hs' hmoved']
        exact .ok _ _ ht
    · rw [repeated_fault hs']
      exact .fault ..

/-- So are steps that are marked. -/
theorem modified (h : Simulates k step step') (hstable : Stable step) (limit : Nat)
    (mods : Modifiers) :
    Simulates k (Ebnf.modified limit mods step) (Ebnf.modified (limit + k) mods step') := by
  intro s s' hs
  cases hmods : mods.plural with
  | true =>
    rw [modified_plural step hmods, modified_plural step' hmods]
    have hrounds := h.repeated hstable limit s s' hs
    generalize Ebnf.repeated limit step s = r, Ebnf.repeated (limit + k) step' s' = r' at hrounds
    cases hrounds with
    | ok out out' ht => exact .found _ _ ht
    | fault => exact .fault ..
  | false =>
    rw [modified_single step hmods, modified_single step' hmods]
    have honce := h s s' hs
    generalize step s = r, step' s' = r' at honce
    cases honce with
    | fault => exact .fault ..
    | found out out' ht => exact .found _ _ ht
    | missed ht =>
      cases mods.optional with
      | true => exact .found _ _ (hs.undone ht)
      | false => exact .missed (hs.undone ht)

end Simulates

end Run

/-! ## 4. Instructions -/

section

variable {src src' : Source} {space : Char → Bool} {front : List Char}
  {inner inner' : Name → Run (Option (Option Value))}

/-- Reading a token keeps two runs in step. -/
theorem Token.simulates (h : src.Led src' space front)
    (hinner : ∀ target, Run.Simulates (Text.byteLength front) (inner target) (inner' target))
    (token : Token) (destination : Destination) :
    Run.Simulates (Text.byteLength front) (token.run src inner destination)
      (token.run src' inner' destination) := by
  cases token with
  | literal text witness =>
    exact (Run.Simulates.scan fun _ _ => h.literal text).bind .missed fun _ _ => .found _ _
  | pattern shown find =>
    exact (Run.Simulates.scan fun _ _ => h.pattern find shown).bind .missed fun _ _ => .found _ _
  | entity target => exact (hinner target).bind .missed fun _ _ => .found _ _

/-- Following an instruction keeps two runs in step. -/
theorem Op.simulates (h : src.Led src' space front)
    (hinner : ∀ target, Run.Simulates (Text.byteLength front) (inner target) (inner' target))
    (hstable : ∀ target, Run.Stable (inner target)) (op : Op) :
    Run.Simulates (Text.byteLength front) (op.run src inner) (op.run src' inner') := by
  have hcarries : Op.Carries src.size src'.size fun step step' =>
      Run.Simulates (Text.byteLength front) step step' ∧ Run.Stable step := {
    found := ⟨.found _ _, .pure _⟩
    missed := ⟨.missed, .pure _⟩
    both := fun hstep hnext => ⟨hstep.1.both hnext.1, hstep.2.both hnext.2⟩
    either := fun hstep hnext => ⟨hstep.1.either hnext.1, hstep.2.either hnext.2⟩
    modified := fun mods _ _ hstep => by
      rw [h.size_eq]
      exact ⟨hstep.1.modified hstep.2 src.size mods, hstep.2.modified src.size mods⟩ }
  exact (op.carries hcarries fun token destination =>
    ⟨token.simulates h hinner destination, token.stable hstable destination⟩).1

end

/-! ## 5. Entities -/

namespace Program

variable {p : Program} {src src' : Source} {space : Char → Bool} {front : List Char}

/-- What a node stands for is asked of its entity. -/
theorem simulates_nodeValue {n n' : Node} (h : n'.entity = n.entity) :
    Run.Simulates k (do return some (← p.nodeValue n)) (do return some (← p.nodeValue n')) := by
  unfold nodeValue
  rw [h]
  cases p.procedure? n.entity with
  | none => exact .found _ _
  | some procedure =>
    simp only [bind_assoc]
    exact .check fun _ => .found _ _

/-- Reading an entity that another one refers to keeps two runs in step if reading the entity
    does. -/
theorem simulates_inner {depth : Nat} {target : Name}
    (h : Run.Simulates k (p.entity src depth target) (p.entity src' depth target)) :
    Run.Simulates k (p.inner src depth target) (p.inner src' depth target) := by
  intro s s' hs
  have hentity := h s s' hs
  unfold inner
  rw [bind_apply, bind_apply]
  generalize hr : p.entity src depth target s = r, hr' : p.entity src' depth target s' = r'
    at hentity
  cases hentity with
  | missed ht => exact .missed ht
  | found n n' ht =>
    have hname : n'.entity = n.entity := (entity_of_entity hr').trans (entity_of_entity hr).symm
    exact simulates_nodeValue hname _ _ ht
  | fault => exact .fault ..

/-- Reading an entity keeps two runs in step. -/
theorem simulates_entity (h : src.Led src' space front) (depth : Nat) :
    ∀ name, Run.Simulates (Text.byteLength front) (p.entity src depth name)
      (p.entity src' depth name) := by
  induction depth with
  | zero =>
    intro name s s' hs
    refine .missed ⟨hs.cursor, ?_⟩
    show s'.overflow.or (some name) = s.overflow.or (some name)
    rw [hs.overflow]
  | succ depth ih =>
    intro name
    have hinner : ∀ target, Run.Simulates (Text.byteLength front) (p.inner src depth target)
        (p.inner src' depth target) := fun target => simulates_inner (ih target)
    have hstable : ∀ target, Run.Stable (p.inner src depth target) := fun target =>
      stable_inner (stable_entity depth target)
    cases hproc : p.procedure? name with
    | none => rw [entity_none hproc, entity_none hproc]; exact .missed
    | some proc =>
      cases hbody : proc.body with
      | none => rw [entity_bodiless hproc hbody, entity_bodiless hproc hbody]; exact .missed
      | some body =>
        rw [entity_some hproc hbody, entity_some hproc hbody]
        refine .told (fun s => s.events.push (.entityTried name s.cursor.offset))
          (fun s => s.events.push (.entityTried name s.cursor.offset)) ?_
        exact .check fun op => (op.simulates h hinner hstable).bind .missed fun _ _ =>
          .check fun _ => .found _ _

end Program

/-! ## 6. Whole texts -/

/-- An error with its offset, if it tells of one, larger by `k`. -/
def ReadError.shift (k : Nat) : ReadError → ReadError
  | .noMatch entity offset expected => .noMatch entity (offset + k) expected
  | .trailingInput offset => .trailingInput (offset + k)
  | e => e

namespace Program

variable {p : Program} {t t' : RunState}

/-- What failed farthest is told of in the same way, if it was remembered where. -/
theorem failure_shift (h : t.Lags k t') (hreached : t.overflow = none →
    t'.cursor.farthest = t.cursor.farthest + k) : p.failure t' = (p.failure t).shift k := by
  unfold failure
  rw [h.overflow]
  cases hdeep : t.overflow with
  | some name => rfl
  | none => simp only [ReadError.shift, hreached hdeep, h.cursor.expected]

/-- A text that goes on after its root is refused for the same reason. -/
theorem refusal_shift (h : t.Lags k t') (hpast : t'.cursor.offset = t.cursor.offset + k) :
    p.refusal t' = (p.refusal t).shift k := by
  have hfarthest := h.cursor.farthest
  have hbeyond : t'.cursor.offset < t'.cursor.farthest ↔ t.cursor.offset < t.cursor.farthest := by
    omega
  unfold refusal
  simp only [h.overflow, hbeyond]
  by_cases hhidden : t.overflow.isSome = true ∨ t.cursor.offset < t.cursor.farthest
  · rw [if_pos hhidden, if_pos hhidden]
    refine failure_shift h fun hdeep => ?_
    have hfailed : t.cursor.offset < t.cursor.farthest := hhidden.resolve_left (by simp [hdeep])
    omega
  · rw [if_neg hhidden, if_neg hhidden, hpast]
    rfl

/-- Two whole texts are both read, or are refused for the same reason. -/
theorem read_of_led {front text : String} {space : Char → Bool}
    (hled : (p.source text).Led (p.source (front ++ text)) space front.toList)
    (hreached : ∀ s, p.entity (p.source text) (p.maxDepth + 1) p.root {} = .ok none s →
      s.overflow = none → s.cursor.expected ≠ [])
    {result result' : Except ReadError Node} (h : p.read text = .ok result)
    (h' : p.read (front ++ text) = .ok result') :
    ((∃ node, result' = .ok node) ↔ ∃ node, result = .ok node) ∧
      ∀ e, result = .error e → result' = .error (e.shift (Text.byteLength front.toList)) := by
  have hsource : ∀ text : String,
      ({ text := text.toList, ignore := p.ignore } : Source) = p.source text := fun _ => rfl
  rw [p.read_eq, hsource] at h h'
  have hroot := simulates_entity (p := p) hled (p.maxDepth + 1) p.root {} {} .empty
  generalize hr : p.entity (p.source text) (p.maxDepth + 1) p.root {} = r,
    p.entity (p.source (front ++ text)) (p.maxDepth + 1) p.root {} = r' at hroot h h'
  cases hroot with
  | fault => cases h'
  | missed ht =>
    cases h
    cases h'
    refine ⟨iff_of_false nofun nofun, fun e he => ?_⟩
    cases he
    refine congrArg Except.error (failure_shift ht fun hdeep => ?_)
    exact ht.cursor.farthest.resolve_right fun hfirst => hreached _ hr hdeep hfirst.1
  | found n n' ht =>
    rename_i t t'
    simp only at h h'
    have hend := hled.atEnd ht.cursor
    generalize (p.source text).atEnd t.cursor = r, (p.source (front ++ text)).atEnd t'.cursor = r'
      at hend h h'
    cases hend with
    | fault => cases h'
    | ok atEnd hd =>
      cases atEnd with
      | true =>
        cases h
        cases h'
        exact ⟨iff_of_true ⟨n', rfl⟩ ⟨n, rfl⟩, nofun⟩
      | false =>
        cases h
        cases h'
        refine ⟨iff_of_false nofun nofun, fun e he => ?_⟩
        cases he
        exact congrArg Except.error (refusal_shift ⟨hd.toLags, ht.overflow⟩ hd.past)

end Program

section

variable {g : Grammar} {engine : Engine} {m : Model} {p : Program}

/-- The root of a program is that of its grammar. -/
theorem Program.Made.reachable_root [Unicode.Xid] {config : ReadConfig} {patterns : Patterns}
    (hmade : p.Made engine m config patterns) (hreached : Build.Reached g m True) :
    g.Reachable p.root := by
  obtain ⟨root, hsome, hname⟩ := Option.map_eq_some_iff.1 (hreached.rules.root ▸ hmade.root)
  exact ⟨root, hsome, hname ▸ .refl⟩

/-- Space at the start of a text makes no difference to whether it is read. Where spaces may be
    passed over, as many as there are, a text is read just if it is with more of them at its start,
    as long as 32 bits can hold the size; and if not, it is refused for the same reason: only the
    offset that is told of is larger, by the length of what was added. -/
theorem read_leading_space [Unicode.Xid] {n maxDepth : Nat} (hmodel : Model.ofGrammar g = .ok m)
    (hprogram : Program.ofModel engine m { maxDepth } = .ok (p, n)) (hengine : engine.Sound)
    {space : Char → Bool} (hspace : engine.anchored "\\s+" = .ok (.greedy space))
    {front text : String} (hfront : ∀ c ∈ front.toList, space c = true)
    (hsize : Text.byteLength (front ++ text).toList < UInt32.size) :
    ∃ result result', p.read text = .ok result ∧ p.read (front ++ text) = .ok result' ∧
      ((∃ node, result' = .ok node) ↔ ∃ node, result = .ok node) ∧
      ∀ e, result = .error e → result' = .error (e.shift (Text.byteLength front.toList)) := by
  have hreached := (Build.reached_ofGrammar hmodel).1
  obtain ⟨patterns, hmade⟩ := Program.made_of_ofModel hprogram
  have hfind : engine.find "\\s+" = .greedy space := by rw [Engine.find, hspace]
  have hread : ∀ text : String, Text.byteLength text.toList < UInt32.size →
      ∃ result, p.read text = .ok result := fun text =>
    read_of_start hmodel hprogram hengine fun pattern hpattern cs found hfound => by
      obtain rfl := Option.some.inj hpattern
      rw [hfind] at hfound
      exact Matcher.start_of_greedy hfound
  have hshorter : Text.byteLength text.toList < UInt32.size := by
    rw [String.toList_append, Text.byteLength_append] at hsize
    omega
  obtain ⟨result, hresult⟩ := hread text hshorter
  obtain ⟨result', hresult'⟩ := hread (front ++ text) hsize
  refine ⟨result, result', hresult, hresult', ?_⟩
  have hled : (p.source text).Led (p.source (front ++ text)) space front.toList := by
    have hignore : p.ignore = some (.greedy space) := by
      rw [hmade.ignore_eq]
      exact congrArg some hfind
    exact ⟨hignore, hignore, String.toList_append, hfront, hsize⟩
  refine Program.read_of_led hled (fun s hrun hdeep => ?_) hresult hresult'
  have hreports := hmade.reports_entity hreached (p.source text) (p.maxDepth + 1) p.root
    (hmade.reachable_root hreached)
  exact (hreports.records [] {} none s Cursor.recalls_empty hrun).exact
    (hreports.tells {} s hrun hdeep) |>.1

end

namespace Indented

/-- Understands spaces only. -/
def engine : Engine where
  compile text :=
    if text = "\\A(?:\\s+)" then .ok (.greedy Unicode.isBlank) else .error "not understood"

theorem anchored_eq : engine.anchored "\\s+" = .ok (.greedy Unicode.isBlank) :=
  rfl

theorem sound : engine.Sound := by
  intro pattern find hfind
  rw [Engine.anchored, engine] at hfind
  simp only at hfind
  split at hfind
  · obtain rfl := Except.ok.inj hfind
    exact Matcher.sound_greedy Unicode.isBlank
  · contradiction

/-- The program of a single letter with spaces before it. -/
def program : Program :=
  { Letter.program with ignore := some (.greedy Unicode.isBlank) }

theorem ofModel_eq : Program.ofModel engine Letter.model { maxDepth := 256 } = .ok (program, 0) :=
  rfl

theorem read_eq : program.read "c" = .ok (.error (.noMatch "letter" 0 ["\"b\""])) := by
  decide +kernel

theorem spaces : ∀ c ∈ "\u00A0\n".toList, Unicode.isBlank c = true := by
  intro c hc
  have hchars : c = '\u00A0' ∨ c = '\n' := by simpa using hc
  rcases hchars with rfl | rfl <;> decide

end Indented

/-- The letter is missed three bytes further on behind a wide space and the end of a line. -/
theorem read_leading_space_letter :
    Model.ofGrammar Letter.grammar = .ok Letter.model ∧
    Program.ofModel Indented.engine Letter.model { maxDepth := 256 } =
      .ok (Indented.program, 0) ∧
    Indented.engine.Sound ∧
    Indented.engine.anchored "\\s+" = .ok (.greedy Unicode.isBlank) ∧
    (∀ c ∈ "\u00A0\n".toList, Unicode.isBlank c = true) ∧
    Text.byteLength ("\u00A0\n" ++ "c").toList < UInt32.size ∧
    Indented.program.read "c" = .ok (.error (.noMatch "letter" 0 ["\"b\""])) ∧
    Indented.program.read ("\u00A0\n" ++ "c") =
      .ok (.error (.noMatch "letter" 3 ["\"b\""])) := by
  have hsize : Text.byteLength ("\u00A0\n" ++ "c").toList < UInt32.size := by decide
  obtain ⟨result, result', hresult, hresult', _, herror⟩ := read_leading_space Letter.ofGrammar_eq
    Indented.ofModel_eq Indented.sound Indented.anchored_eq Indented.spaces hsize
  obtain rfl := Except.ok.inj (Indented.read_eq.symm.trans hresult)
  refine ⟨Letter.ofGrammar_eq, Indented.ofModel_eq, Indented.sound, Indented.anchored_eq,
    Indented.spaces, hsize, Indented.read_eq, hresult'.trans ?_⟩
  rw [herror _ rfl]
  rfl

end Ebnf
