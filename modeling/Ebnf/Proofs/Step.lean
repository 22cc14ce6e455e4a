import Mathlib.Data.List.Forall2
import Ebnf.Build.Draft

/-!
# What a step of building brings about

A step either ends in a draft with a result, or ends early. `Build.Ensures` says what holds in each
case; there is one equation for each of the basic forms of a step, so that a compound step is taken
apart by rewriting.

* `Build.Ensures`: the draft and the result a step leads to, and the reasons for which it may end
  early;
* `Build.Shortage`: the one reason that every step may have, that there are no more ids to give.
-/

namespace Ebnf

/-! ## 1. Outcomes of a step -/

/-- A step after another starts from where that one ends, unless that one fails. -/
theorem bind_apply {ε σ α β : Type} (step : EStateM ε σ α) (next : α → EStateM ε σ β) (s : σ) :
    (step >>= next) s = match step s with
      | .ok a t => next a t
      | .error e t => .error e t := by
  show EStateM.bind step next s = _
  unfold EStateM.bind
  cases step s <;> rfl

/-- The same where that one has ended well. -/
theorem bind_of_ok {ε σ α β : Type} {step : EStateM ε σ α} {next : α → EStateM ε σ β} {s t : σ}
    {a : α} (h : step s = .ok a t) : (step >>= next) s = next a t := by
  rw [bind_apply, h]

/-- A step for each element of a list, of which the first has ended well. -/
theorem forM_cons_of_ok {ε σ α : Type} {f : α → EStateM ε σ Unit} {x : α} {xs : List α} {s t : σ}
    (h : f x s = .ok () t) : (x :: xs).forM f s = xs.forM f t := by
  show (f x >>= fun _ => xs.forM f) s = _
  rw [bind_of_ok h]

/-- A step after another ends well where both do. -/
theorem bind_eq_ok {ε σ α β : Type} {step : EStateM ε σ α} {next : α → EStateM ε σ β} {s t : σ}
    {b : β} : (step >>= next) s = .ok b t ↔ ∃ a u, step s = .ok a u ∧ next a u = .ok b t := by
  rw [bind_apply]
  cases step s with
  | error e u => simp
  | ok a u => simp

/-- A step that finds something only from what another has found comes after a find of that one. -/
theorem found_of_bind {ε σ α β : Type} {step : EStateM ε σ (Option α)}
    {next : Option α → EStateM ε σ (Option β)} {s t : σ} {b : β}
    (h : (step >>= next) s = .ok (some b) t) (hnone : ∀ u, next none u = .ok none u) :
    ∃ a u, step s = .ok (some a) u ∧ next (some a) u = .ok (some b) t := by
  obtain ⟨found, u, hstep, hnext⟩ := bind_eq_ok.1 h
  cases found with
  | none =>
    rw [hnone] at hnext
    cases hnext
  | some a => exact ⟨a, u, hstep, hnext⟩

namespace Build

variable {α β : Type}

/-- A step that is done in the draft `d` leads to a result and a draft as `Q` says, or ends early
    for a reason that `E` allows. -/
def Ensures (step : Build α) (d : Draft) (E : BuildStop → Prop) (Q : α → Draft → Prop) : Prop :=
  match step d with
  | .ok a d' => Q a d'
  | .error stop _ => E stop

/-- Every id is in use. -/
def Shortage (stop : BuildStop) : Prop :=
  ∃ i, idCount ≤ i ∧ stop = .fault (.tooManyEntries i)

variable {d : Draft} {E E' : BuildStop → Prop} {Q Q' : α → Draft → Prop}

/-- What follows from the outcome of a step is ensured by it too. -/
theorem Ensures.mono {step : Build α} (h : Ensures step d E Q) (hE : ∀ stop, E stop → E' stop)
    (hQ : ∀ a d', Q a d' → Q' a d') : Ensures step d E' Q' := by
  unfold Ensures at h ⊢
  split at h
  · next a d' _ => exact hQ a d' h
  · next stop _ _ => exact hE stop h

/-- What is ensured of the same step twice. -/
theorem Ensures.and {step : Build α} (h : Ensures step d E Q) (h' : Ensures step d E' Q') :
    Ensures step d (fun stop => E stop ∧ E' stop) fun a d' => Q a d' ∧ Q' a d' := by
  unfold Ensures at h h' ⊢
  cases hs : step d with
  | ok a d' => rw [hs] at h h'; exact ⟨h, h'⟩
  | error stop d' => rw [hs] at h h'; exact ⟨h, h'⟩

/-- A step that ends well has led to what it ensures. -/
theorem Ensures.of_ok {step : Build α} {a : α} {d' : Draft} (h : Ensures step d E Q)
    (hs : step d = .ok a d') : Q a d' := by
  unfold Ensures at h
  rw [hs] at h
  exact h

/-! ## 2. The basic forms -/

@[simp] theorem ensures_pure {a : α} : Ensures (pure a) d E Q ↔ Q a d := Iff.rfl

@[simp] theorem ensures_bind {x : Build β} {f : β → Build α} :
    Ensures (x >>= f) d E Q ↔ Ensures x d E fun b d' => Ensures (f b) d' E Q := by
  unfold Ensures
  show (match EStateM.bind x f d with | .ok a d' => Q a d' | .error stop _ => E stop) ↔ _
  unfold EStateM.bind
  cases x d <;> exact Iff.rfl

@[simp] theorem ensures_get {Q : Draft → Draft → Prop} :
    Ensures (get : Build Draft) d E Q ↔ Q d d := Iff.rfl

@[simp] theorem ensures_modify {f : Draft → Draft} {Q : Unit → Draft → Prop} :
    Ensures (modify f : Build Unit) d E Q ↔ Q () (f d) := Iff.rfl

@[simp] theorem ensures_tell {e : Event} {Q : Unit → Draft → Prop} :
    Ensures (tell e) d E Q ↔ Q () { d with events := d.events.push e } := Iff.rfl

@[simp] theorem ensures_model {Q : Model → Draft → Prop} :
    Ensures model d E Q ↔ Q d.model d := Iff.rfl

@[simp] theorem ensures_setModel {m : Model} {Q : Unit → Draft → Prop} :
    Ensures (setModel m) d E Q ↔ Q () { d with model := m } := Iff.rfl

/-- A step that looks at the model goes on from the same draft. -/
theorem model_bind (f : Model → Build α) (d : Draft) : (model >>= f) d = f d.model d := rfl

theorem check_bind {x : Checked β} {b : β} (hx : x = .ok b) (next : β → Build α) :
    check x >>= next = next b := by
  rw [hx]
  rfl

/-- A request that is answered goes on with the answer. -/
theorem ensures_check_ok {x : Checked α} {a : α} (hx : x = .ok a) :
    Ensures (check x) d E Q ↔ Q a d := by
  rw [hx]
  exact Iff.rfl

/-- An edit that is a fault ends the step, and any other leads to the edited model. -/
theorem ensures_change {edit : Model → Checked (α × Model)} :
    Ensures (change edit) d E Q ↔
      match edit d.model with
      | .ok (a, m) => Q a { d with model := m }
      | .error f => E (.fault f) := by
  simp only [change, ensures_bind, ensures_model]
  cases edit d.model <;> exact Iff.rfl

/-- The same for an edit without a result. -/
theorem ensures_update {edit : Model → Checked Model} {Q : Unit → Draft → Prop} :
    Ensures (update edit) d E Q ↔
      match edit d.model with
      | .ok m => Q () { d with model := m }
      | .error f => E (.fault f) := by
  simp only [update, ensures_bind, ensures_model]
  cases edit d.model <;> exact Iff.rfl

/-! ## 3. Steps in a row -/

/-- What holds at the start and is carried on by the step for each item holds after the steps for
    all. -/
theorem ensures_forM {xs : List β} {f : β → Build Unit} {I : List β → Draft → Prop}
    (hf : ∀ done x rest, xs = done ++ x :: rest → ∀ d, I done d →
      Ensures (f x) d E fun _ d' => I (done ++ [x]) d') (hd : I [] d) :
    Ensures (xs.forM f) d E fun _ d' => I xs d' := by
  have hfrom : ∀ rest done d, xs = done ++ rest → I done d →
      Ensures (rest.forM f) d E fun _ d' => I xs d' := by
    intro rest
    induction rest with
    | nil =>
      intro done d hxs hd
      rw [hxs, List.append_nil]
      exact hd
    | cons x rest ih =>
      intro done d hxs hd
      show Ensures (f x >>= fun _ => rest.forM f) d E _
      rw [ensures_bind]
      refine (hf done x rest hxs d hd).mono (fun _ h => h) fun _ d' hd' => ?_
      refine ih (done ++ [x]) d' ?_ hd'
      rw [hxs, List.append_assoc]
      rfl
  exact hfrom xs [] d rfl hd

/-- What is kept by the step for each item is kept by the steps for all. -/
theorem ensures_forM_keep {xs : List β} {f : β → Build Unit} {I : Draft → Prop}
    (hf : ∀ x ∈ xs, ∀ d, I d → Ensures (f x) d E fun _ d' => I d') (hd : I d) :
    Ensures (xs.forM f) d E fun _ d' => I d' := by
  refine ensures_forM (I := fun _ => I) (fun done x rest hxs d hd => ?_) hd
  exact hf x (by rw [hxs]; exact List.mem_append_right _ List.mem_cons_self) d hd

/-! ## 4. Whole runs -/

/-- A step as a whole leads to the model of the draft it ends with. -/
theorem run_eq_ok {step : Build Unit} {m m' : Model} :
    (Build.run step m).1 = .ok m' ↔ ∃ d, step { model := m } = .ok () d ∧ d.model = m' := by
  unfold Build.run EStateM.run
  cases step { model := m } with
  | ok _ d => simp
  | error stop d => simp

/-- The outcome of a step as a whole. -/
theorem Ensures.run {step : Build Unit} {m : Model} {Q : Model → Prop}
    (h : Ensures step { model := m } E fun _ d' => Q d'.model) :
    match (Build.run step m).1 with
    | .ok m' => Q m'
    | .error stop => E stop := by
  unfold Ensures at h
  unfold Build.run EStateM.run
  split at h
  · next a d' hok =>
    rw [hok]
    exact h
  · next stop d' herror =>
    rw [herror]
    exact h

end Build

/-! ## 5. Requests in a row -/

/-- A request after another is answered where both are. -/
theorem Checked.bind_eq_ok {α β : Type} {x : Checked α} {f : α → Checked β} {b : β} :
    (x >>= f) = .ok b ↔ ∃ a, x = .ok a ∧ f a = .ok b := by
  cases x with
  | error fault => simp [bind, Except.bind]
  | ok a => simp [bind, Except.bind]

/-- Requests that are answered one by one are answered in a row. -/
theorem Checked.mapM_ok {α β : Type} {f : α → Checked β} {P : α → β → Prop} (xs : List α)
    (h : ∀ x ∈ xs, ∃ y, f x = .ok y ∧ P x y) :
    ∃ ys, xs.mapM f = .ok ys ∧ List.Forall₂ P xs ys := by
  induction xs with
  | nil => exact ⟨[], rfl, .nil⟩
  | cons x xs ih =>
    obtain ⟨y, hy, hP⟩ := h x List.mem_cons_self
    obtain ⟨ys, hys, hall⟩ := ih fun z hz => h z (List.mem_cons_of_mem _ hz)
    refine ⟨y :: ys, ?_, .cons hP hall⟩
    rw [List.mapM_cons, hy, hys]
    rfl

/-- They are so whatever the answers. -/
theorem Checked.exists_mapM {α β : Type} {f : α → Checked β} (xs : List α)
    (h : ∀ x ∈ xs, ∃ y, f x = .ok y) : ∃ ys, xs.mapM f = .ok ys := by
  obtain ⟨ys, hys, _⟩ := Checked.mapM_ok (P := fun x y => f x = .ok y) xs fun x hx => by
    obtain ⟨y, hy⟩ := h x hx
    exact ⟨y, hy, hy⟩
  exact ⟨ys, hys⟩

/-- Requests that are answered in a row are answered one by one. -/
theorem Checked.forall₂_of_mapM {α β : Type} {f : α → Checked β} {xs : List α} :
    ∀ {ys : List β}, xs.mapM f = .ok ys → List.Forall₂ (fun x y => f x = .ok y) xs ys := by
  induction xs with
  | nil =>
    intro ys hys
    obtain rfl := Except.ok.inj hys
    exact .nil
  | cons x xs ih =>
    intro ys hys
    rw [List.mapM_cons] at hys
    cases hx : f x with
    | error fault => rw [hx] at hys; contradiction
    | ok y =>
      cases hxs : xs.mapM f with
      | error fault => rw [hx, hxs] at hys; contradiction
      | ok rest =>
        rw [hx, hxs] at hys
        obtain rfl := Except.ok.inj hys
        exact .cons hx (ih hxs)

/-- The answer to a request in a row. -/
theorem exists_answer {α β : Type} {P : α → β → Prop} {xs : List α} {ys : List β}
    (h : List.Forall₂ P xs ys) {x : α} (hx : x ∈ xs) : ∃ y ∈ ys, P x y := by
  induction h with
  | nil => exact absurd hx List.not_mem_nil
  | cons hP _ ih =>
    rcases List.mem_cons.1 hx with rfl | hx
    · exact ⟨_, List.mem_cons_self, hP⟩
    · obtain ⟨y, hy, hP⟩ := ih hx
      exact ⟨y, List.mem_cons_of_mem _ hy, hP⟩

end Ebnf
