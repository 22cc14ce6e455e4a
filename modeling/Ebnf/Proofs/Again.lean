import Ebnf.Proofs.Instances
import Ebnf.Proofs.Misses

/-!
# Doing something again

What a step of a run finds depends on nothing but the offset of the cursor. A step that is done once
more from the same offset finds the same, ends at the same offset, and leaves nothing new to be
remembered: what failed had failed there before, and an entity was too deep before.

* `RunState.Covers`, `RunState.Agrees`: a state remembers at least what another one does, or just
  that;
* `Run.Stable`: a step that can be done again without effect;
* `Program.stable_entity`: reading an entity can be done again.
-/

namespace Ebnf

variable {α β : Type}

/-! ## 1. What is remembered -/

namespace Cursor

/-- A cursor remembers at least the failures that another one does, or some farther on. -/
def Covers (d c : Cursor) : Prop :=
  c.farthest < d.farthest ∨ (c.farthest = d.farthest ∧ c.expected ⊆ d.expected)

variable {c d e : Cursor} {what : String}

theorem Covers.of_eq (hfarthest : d.farthest = c.farthest) (hexpected : d.expected = c.expected) :
    d.Covers c :=
  .inr ⟨hfarthest.symm, hexpected ▸ List.Subset.refl _⟩

theorem Covers.trans (h : e.Covers d) (h' : d.Covers c) : e.Covers c := by
  rcases h with h | ⟨h, hsub⟩ <;> rcases h' with h' | ⟨h', hsub'⟩
  · exact .inl (Nat.lt_trans h' h)
  · exact .inl (h' ▸ h)
  · exact .inl (h ▸ h')
  · exact .inr ⟨h'.trans h, List.Subset.trans hsub' hsub⟩

/-- A failure that is noted is remembered, or one farther on is. -/
theorem noteFailure_reaches (c : Cursor) (what : String) :
    c.offset < (c.noteFailure what).farthest ∨
      (c.offset = (c.noteFailure what).farthest ∧ what ∈ (c.noteFailure what).expected) := by
  unfold noteFailure
  by_cases hfarther : c.farthest < c.offset
  · rw [if_pos hfarther]
    exact .inr ⟨rfl, List.mem_singleton_self what⟩
  · rw [if_neg hfarther]
    by_cases hnew : c.offset = c.farthest ∧ what ∉ c.expected
    · rw [if_pos hnew]
      exact .inr ⟨hnew.1, List.mem_append_right _ (List.mem_singleton_self what)⟩
    · rw [if_neg hnew]
      rcases Nat.lt_or_eq_of_le (Nat.le_of_not_lt hfarther) with hlt | heq
      · exact .inl hlt
      · exact .inr ⟨heq, not_not.1 fun hmem => hnew ⟨heq, hmem⟩⟩

/-- Noting a failure forgets none but those less far on. -/
theorem covers_noteFailure (c : Cursor) (what : String) : (c.noteFailure what).Covers c := by
  unfold noteFailure
  split
  · next hfarther => exact .inl hfarther
  · split
    · exact .inr ⟨rfl, List.subset_append_left _ _⟩
    · exact .of_eq rfl rfl

/-- A failure that a cursor remembers already is not noted again. -/
theorem Covers.noteFailure_eq (h : d.Covers (c.noteFailure what)) (hoffset : d.offset = c.offset) :
    d.noteFailure what = d := by
  have hle : d.offset ≤ d.farthest := by
    have := c.noteFailure_reaches what
    unfold Covers at h
    omega
  have hknown : ¬ (d.offset = d.farthest ∧ what ∉ d.expected) := by
    rintro ⟨hat, hmem⟩
    rcases c.noteFailure_reaches what with hlt | ⟨heq, hwhat⟩
    · unfold Covers at h
      omega
    · rcases h with hlt | ⟨_, hsub⟩
      · omega
      · exact hmem (hsub hwhat)
  rw [noteFailure, if_neg (Nat.not_lt.2 hle), if_neg hknown]

end Cursor

namespace RunState

/-- A state remembers at least what another one does. -/
structure Covers (u t : RunState) : Prop where
  overflow : t.overflow ≠ none → u.overflow ≠ none
  cursor : u.cursor.Covers t.cursor

/-- Two states remember the same. -/
structure Agrees (u t : RunState) : Prop where
  overflow : u.overflow = t.overflow
  farthest : u.cursor.farthest = t.cursor.farthest
  expected : u.cursor.expected = t.cursor.expected

variable {s t u : RunState}

theorem Agrees.covers (h : u.Agrees t) : u.Covers t where
  overflow := h.overflow ▸ id
  cursor := .of_eq h.farthest h.expected

theorem Agrees.refl (s : RunState) : s.Agrees s :=
  ⟨rfl, rfl, rfl⟩

theorem Agrees.trans (h : u.Agrees t) (h' : t.Agrees s) : u.Agrees s :=
  ⟨h.overflow.trans h'.overflow, h.farthest.trans h'.farthest, h.expected.trans h'.expected⟩

theorem Covers.refl (s : RunState) : s.Covers s :=
  (Agrees.refl s).covers

theorem Covers.trans (h : u.Covers t) (h' : t.Covers s) : u.Covers s where
  overflow := h.overflow ∘ h'.overflow
  cursor := h.cursor.trans h'.cursor

end RunState

/-! ## 2. Steps that can be done again -/

/-- A step that forgets nothing, and without effect is done again where all that it has left to be
    remembered is remembered. -/
structure Run.Stable (step : Run α) : Prop where
  grows : ∀ s a t, step s = .ok a t → t.Covers s
  again : ∀ s a t, step s = .ok a t → ∀ u : RunState, u.cursor.offset = s.cursor.offset →
    u.Covers t → ∃ v, step u = .ok a v ∧ v.cursor.offset = t.cursor.offset ∧ v.Agrees u

namespace Run.Stable

theorem pure (a : α) : Stable (Pure.pure a : Run α) where
  grows := by
    intro s b t h
    cases h
    exact .refl s
  again := by
    intro s b t h u hu _
    cases h
    exact ⟨u, rfl, hu, .refl u⟩

theorem check (x : Checked α) : Stable (Run.check x) := by
  cases x with
  | ok a => exact .pure a
  | error f => exact ⟨fun s a t h => by contradiction, fun s a t h => by contradiction⟩

/-- A step that depends on the first one is done from where that one ends again. -/
theorem bind {step : Run α} (h : Stable step) {next : α → Run β}
    (hnext : ∀ a, Stable (next a)) : Stable (step >>= next) where
  grows := by
    intro s b t hok
    obtain ⟨a, r, hs, hr⟩ := bind_eq_ok.1 hok
    exact ((hnext a).grows r b t hr).trans (h.grows s a r hs)
  again := by
    intro s b t hok u hu hcovers
    obtain ⟨a, r, hs, hr⟩ := bind_eq_ok.1 hok
    obtain ⟨v, hv, hoffset, hagrees⟩ :=
      h.again s a r hs u hu (hcovers.trans ((hnext a).grows r b t hr))
    obtain ⟨w, hw, hoffset', hagrees'⟩ :=
      (hnext a).again r b t hr v hoffset (hagrees.covers.trans hcovers)
    exact ⟨w, bind_eq_ok.2 ⟨a, v, hv, hw⟩, hoffset', hagrees'.trans hagrees⟩

/-- What only goes on with something that was found. -/
theorem found {step : Run (Option α)} (h : Stable step) {next : Option α → Run (Option β)}
    (hnone : next none = Pure.pure none) (hsome : ∀ a, Stable (next (some a))) :
    Stable (step >>= next) := by
  refine h.bind fun a => ?_
  cases a with
  | none => rw [hnone]; exact .pure none
  | some a => exact hsome a

/-- Events make no difference. -/
theorem told {step : Run α} (tell : RunState → Array Event) (h : Stable step) :
    Stable fun s => step { s with events := tell s } where
  grows := fun s a t hs => (h.grows { s with events := tell s } a t hs).trans ⟨id, .of_eq rfl rfl⟩
  again := by
    intro s a t hs u hu hcovers
    obtain ⟨v, hv, hoffset, hagrees⟩ :=
      h.again { s with events := tell s } a t hs { u with events := tell u } hu
        ⟨hcovers.overflow, hcovers.cursor⟩
    exact ⟨v, hv, hoffset, hagrees.trans ⟨rfl, rfl, rfl⟩⟩

/-- Looking for a token again does not note again what was expected. -/
theorem scan {step : Scan (Option (List Char))} {what : String} (h : Steady step)
    (hnotes : Source.Notes what step) : Stable (Run.scan step) where
  grows := by
    intro s found t hok
    rw [Run.scan] at hok
    cases hs : step s.cursor with
    | error f d => rw [hs] at hok; cases hok
    | ok found' d =>
      rw [hs] at hok
      cases hok
      obtain ⟨b, ⟨hfarthest, hexpected⟩, rfl⟩ := hnotes s.cursor _ d hs
      refine ⟨id, ?_⟩
      have hb : b.Covers s.cursor := .of_eq hfarthest hexpected
      cases found with
      | some text => exact hb
      | none => exact (b.covers_noteFailure what).trans hb
  again := by
    intro s found t hok u hu hcovers
    rw [Run.scan] at hok
    cases hs : step s.cursor with
    | error f d => rw [hs] at hok; cases hok
    | ok found' d =>
      rw [hs] at hok
      cases hok
      have hblind := h.blind s.cursor u.cursor hu.symm
      rw [hs] at hblind
      rw [Run.scan]
      cases hs' : step u.cursor with
      | error f d' => rw [hs'] at hblind; exact hblind.elim
      | ok found' d' =>
        rw [hs'] at hblind
        obtain ⟨rfl, hoffset⟩ := hblind
        obtain ⟨b, _, rfl⟩ := hnotes s.cursor _ d hs
        obtain ⟨b', ⟨hfarthest, hexpected⟩, rfl⟩ := hnotes u.cursor _ d' hs'
        cases found with
        | some text => exact ⟨_, rfl, hoffset.symm, rfl, hfarthest, hexpected⟩
        | none =>
          have hat : b'.offset = b.offset := by
            rw [← b.offset_noteFailure what, ← b'.offset_noteFailure what]
            exact hoffset.symm
          have hb' : b'.Covers (b.noteFailure what) :=
            .trans (.of_eq hfarthest hexpected) hcovers.cursor
          have hsame : b'.noteFailure what = b' := hb'.noteFailure_eq hat
          exact ⟨_, rfl, hoffset.symm, rfl, (congrArg Cursor.farthest hsame).trans hfarthest,
            (congrArg Cursor.expected hsame).trans hexpected⟩

section

variable {step next : Run (Option Assignments)}

theorem both (h : Stable step) (hnext : Stable next) : Stable (do
    let some out ← step | return none
    let some more ← next | return none
    return some (out ++ more)) :=
  h.found rfl fun _ => hnext.found rfl fun _ => .pure _

theorem either (h : Stable step) (hnext : Stable next) : Stable (do
    match ← step with
    | some out => return some out
    | none => next) := by
  refine h.bind fun found => ?_
  cases found with
  | none => exact hnext
  | some out => exact .pure _

/-- What a state remembers is kept. -/
theorem keeps (h : Stable step) (u : RunState) :
    Keeps (RunState.Covers · u) (fun _ => True) step := by
  intro s hs
  cases hstep : step s with
  | ok a t => exact (h.grows s a t hstep).trans hs
  | error f t => trivial

theorem grows_repeated (h : Stable step) {limit : Nat} {s t : RunState} {out : Assignments}
    (hok : Ebnf.repeated limit step s = .ok out t) : t.Covers s := by
  have hkept := (h.keeps s).repeated (fun _ _ _ ht => ⟨ht.overflow, ht.cursor⟩) limit s (.refl s)
  rwa [hok] at hkept

/-- All rounds are done again, and the last one ends the repetition again. -/
theorem repeated (h : Stable step) (limit : Nat) : Stable (Ebnf.repeated limit step) where
  grows := fun s out t => h.grows_repeated
  again := by
    intro s
    apply repeated_induction
    case missed =>
      intro s t hs u hu hcovers
      obtain ⟨v, hv, _, hagrees⟩ := h.again s none t hs u hu ⟨hcovers.overflow, hcovers.cursor⟩
      exact ⟨_, repeated_missed hv, hu, hagrees.overflow, hagrees.farthest, hagrees.expected⟩
    case moved =>
      intro s first t more t' hs hmoved hmore ih u hu hcovers
      obtain ⟨v, hv, hoffset, hagrees⟩ :=
        h.again s _ t hs u hu (hcovers.trans (h.grows_repeated hmore))
      obtain ⟨w, hw, hoffset', hagrees'⟩ := ih v hoffset (hagrees.covers.trans hcovers)
      refine ⟨w, ?_, hoffset', hagrees'.trans hagrees⟩
      rw [← hu, ← hoffset] at hmoved
      rw [repeated_moved hv hmoved, hw]
    case last =>
      intro s out t hs hstop u hu hcovers
      obtain ⟨v, hv, hoffset, hagrees⟩ := h.again s _ _ hs u hu hcovers
      rw [← hu, ← hoffset] at hstop
      exact ⟨v, repeated_last hv hstop, hoffset, hagrees⟩

/-- What is undone once is undone again. -/
theorem modified (h : Stable step) (limit : Nat) (mods : Modifiers) :
    Stable (Ebnf.modified limit mods step) where
  grows := by
    intro s found t hok
    have hkept := (h.keeps s).modified (fun _ _ _ ht => ⟨ht.overflow, ht.cursor⟩) limit mods s
      (.refl s)
    rwa [hok] at hkept
  again := by
    intro s found t hok u hu hcovers
    cases hmods : mods.plural with
    | true =>
      rw [modified_plural step hmods] at hok ⊢
      cases hrounds : Ebnf.repeated limit step s with
      | error f r => rw [hrounds] at hok; cases hok
      | ok out r =>
        rw [hrounds] at hok
        cases hok
        obtain ⟨v, hv, hoffset, hagrees⟩ := (h.repeated limit).again s out _ hrounds u hu hcovers
        exact ⟨v, by rw [hv], hoffset, hagrees⟩
    | false =>
      rw [modified_single step hmods] at hok ⊢
      cases honce : step s with
      | error f r => rw [honce] at hok; cases hok
      | ok out r =>
        rw [honce] at hok
        cases out with
        | some out =>
          cases hok
          obtain ⟨v, hv, hoffset, hagrees⟩ := h.again s _ _ honce u hu hcovers
          exact ⟨v, by rw [hv], hoffset, hagrees⟩
        | none =>
          cases hok
          obtain ⟨v, hv, _, hagrees⟩ :=
            h.again s none r honce u hu ⟨hcovers.overflow, hcovers.cursor⟩
          exact ⟨{ v with cursor := v.cursor.moveTo u.cursor.offset }, by rw [hv], hu,
            hagrees.overflow, hagrees.farthest, hagrees.expected⟩

end

end Run.Stable

/-! ## 3. Instructions -/

section

variable {src : Source} {inner : Name → Run (Option (Option Value))}

/-- Reading a token can be done again if reading entities can be. -/
theorem Token.stable (hinner : ∀ target, Run.Stable (inner target)) (token : Token)
    (destination : Destination) : Run.Stable (token.run src inner destination) := by
  cases token with
  | literal text witness =>
    exact (Run.Stable.scan (.literal src text) (src.notes_literal text)).found rfl fun _ => .pure _
  | pattern shown find =>
    exact (Run.Stable.scan (.pattern src find shown) (src.notes_pattern find shown)).found rfl
      fun _ => .pure _
  | entity target => exact (hinner target).found rfl fun _ => .pure _

/-- Following an instruction can be done again if reading entities can be. -/
theorem Op.stable (hinner : ∀ target, Run.Stable (inner target)) (op : Op) :
    Run.Stable (op.run src inner) := by
  have hcarries : Op.Carries src.size src.size fun step _ => Run.Stable step := {
    found := .pure _
    missed := .pure _
    both := .both
    either := .either
    modified := fun mods _ _ h => h.modified src.size mods }
  exact @Op.carries src src inner inner _ hcarries
    (fun token destination => token.stable hinner destination) op

end

/-! ## 4. Entities -/

namespace Program

variable {p : Program} {src : Source} {depth : Nat} {name : Name}

/-- An entity that is not there is not found. -/
theorem entity_none (h : p.procedure? name = none) : p.entity src (depth + 1) name = pure none := by
  unfold entity
  rw [h]

/-- Nor is one without an action. -/
theorem entity_bodiless {proc : Procedure} (h : p.procedure? name = some proc)
    (hbody : proc.body = none) : p.entity src (depth + 1) name = pure none := by
  unfold entity
  simp only [h, hbody]

/-- Any other entity is tried, and its node put together from what its instruction yields. -/
theorem entity_some {proc : Procedure} {body : Checked Op} (h : p.procedure? name = some proc)
    (hbody : proc.body = some body) :
    p.entity src (depth + 1) name = fun s => (do
      let op ← Run.check body
      let some out ← op.run src (p.inner src depth) | return none
      return some (assemble name (← Run.check proc.fields) out) : Run (Option Node))
        { s with events := s.events.push (.entityTried name s.cursor.offset) } := by
  unfold entity
  simp only [h, hbody]
  rfl

theorem stable_nodeValue (n : Node) : Run.Stable (p.nodeValue n) := by
  unfold nodeValue
  cases p.procedure? n.entity with
  | none => exact (Run.Stable.pure false).bind fun _ => .pure _
  | some procedure => exact (Run.Stable.check _).bind fun _ => .pure _

/-- Reading an entity that another one refers to can be done again if reading the entity can be. -/
theorem stable_inner {target : Name} (h : Run.Stable (p.entity src depth target)) :
    Run.Stable (p.inner src depth target) :=
  h.found rfl fun n => (stable_nodeValue n).bind fun _ => .pure _

/-- Reading an entity can be done again: it is found again or not, and nothing new is
    remembered. -/
theorem stable_entity (depth : Nat) : ∀ name, Run.Stable (p.entity src depth name) := by
  induction depth with
  | zero =>
    refine fun name => ⟨fun s found t h => ?_, fun s found t h u hu hcovers => ?_⟩
    · cases h
      exact ⟨fun hsome => by simp, .of_eq rfl rfl⟩
    · cases h
      have hsome : u.overflow ≠ none := hcovers.overflow (by simp)
      refine ⟨_, rfl, hu, ?_, rfl, rfl⟩
      exact Option.or_of_isSome (Option.isSome_iff_ne_none.2 hsome)
  | succ depth ih =>
    intro name
    have hinner : ∀ target, Run.Stable (p.inner src depth target) := fun target =>
      stable_inner (ih target)
    cases hproc : p.procedure? name with
    | none => exact entity_none hproc ▸ .pure none
    | some proc =>
      cases hbody : proc.body with
      | none => exact entity_bodiless hproc hbody ▸ .pure none
      | some body =>
        rw [entity_some hproc hbody]
        refine .told (fun s => s.events.push (.entityTried name s.cursor.offset)) ?_
        exact (Run.Stable.check body).bind fun op => (op.stable hinner).found rfl fun out =>
          (Run.Stable.check proc.fields).bind fun _ => .pure _

end Program

end Ebnf
