import Ebnf.Proofs.Recognition

/-!
# Where repetitions end

Running the rules directly repeats something up to the end of the text. That limit is there for the
sake of the definition only: as long as matchers find no more than there is, nothing reaches beyond
the end, and a repetition ends for no other reason than what it repeats.

* `Source.Confines`: steps of the scanner that stay in the text;
* `Recognizer.Within`, `Grammar.within_recognize`: rules that stay in the text;
* `Expr.recognize_repetition`: where a repetition in a rule ends.
-/

namespace Ebnf

/-! ## 1. Staying in the text -/

/-- What never reaches beyond an offset. -/
def Recognizer.Within (limit : Nat) (r : Recognizer) : Prop :=
  ∀ o next, o ≤ limit → r o = .ok (some next) → next ≤ limit

/-- A matcher that finds no more than there is. -/
def Matcher.Modest (find : Matcher) : Prop :=
  ∀ cs found, find cs = some found → Text.byteLength found.text ≤ Text.byteLength cs

/-- A step of the scanner that never moves the cursor out of the text. -/
def Source.Confines {α : Type} (src : Source) (scan : Scan α) : Prop :=
  ∀ c a d, c.offset ≤ src.size → scan c = .ok a d → d.offset ≤ src.size

namespace Source

variable {α β : Type} {src : Source}

theorem Confines.pure (a : α) : src.Confines (Pure.pure a : Scan α) := by
  intro c b d hc h
  cases h
  exact hc

theorem Confines.fail (what : String) : src.Confines (Cursor.fail what) := by
  intro c a d hc h
  cases h
  rwa [Cursor.offset_noteFailure]

theorem Confines.bind {scan : Scan α} {next : α → Scan β} (h : src.Confines scan)
    (hnext : ∀ a, src.Confines (next a)) : src.Confines (scan >>= next) := by
  intro c b e hc hok
  obtain ⟨a, d, hs, hrest⟩ := bind_eq_ok.1 hok
  exact hnext a d b e (h c a d hc hs) hrest

/-- What is read of the rest of a text leaves the cursor in it. -/
theorem Confines.rest_bind {next : List Char → Scan β}
    (hnext : ∀ cs c b d, c.offset + Text.byteLength cs = src.size → next cs c = .ok b d →
      d.offset ≤ src.size) : src.Confines (src.rest >>= next) := by
  intro c b d _ hok
  rw [src.rest_bind] at hok
  cases hdrop : Text.dropBytes c.offset src.text with
  | none => rw [hdrop] at hok; contradiction
  | some cs =>
    rw [hdrop] at hok
    obtain ⟨front, htext, hfront⟩ := Text.dropBytes_eq_some_iff.1 hdrop
    refine hnext cs c b d ?_ hok
    rw [src.size_eq, htext, Text.byteLength_append, hfront]

theorem Confines.skip (hignore : ∀ find, src.ignore = some find → find.Modest) :
    src.Confines src.skip := by
  unfold Source.skip
  cases hfind : src.ignore with
  | none => exact .pure ()
  | some find =>
    refine .rest_bind fun cs c b d hc hok => ?_
    cases hfound : find cs with
    | none =>
      rw [hfound] at hok
      cases hok
      omega
    | some found =>
      rw [hfound] at hok
      obtain ⟨_, rfl⟩ := Cursor.advance_eq_ok.1 hok
      have := hignore find hfind cs found hfound
      show c.offset + Text.byteLength found.text ≤ src.size
      omega

theorem Confines.literal (hignore : ∀ find, src.ignore = some find → find.Modest)
    (text : String) : src.Confines (src.literal text) := by
  unfold Source.literal
  refine (Confines.skip hignore).bind fun _ => .rest_bind fun cs c b d hc hok => ?_
  by_cases hprefix : text.toList.isPrefixOf cs
  · rw [if_pos hprefix] at hok
    obtain ⟨_, e, hadvance, hlast⟩ := bind_eq_ok.1 hok
    cases hlast
    obtain ⟨_, rfl⟩ := Cursor.advance_eq_ok.1 hadvance
    obtain ⟨rest, rfl⟩ := List.isPrefixOf_iff_prefix.1 hprefix
    rw [Text.byteLength_append] at hc
    show c.offset + Text.byteLength text.toList ≤ src.size
    omega
  · rw [if_neg hprefix] at hok
    refine ((Confines.fail _).bind fun _ => .pure _) c b d ?_ hok
    omega

theorem Confines.pattern (hignore : ∀ find, src.ignore = some find → find.Modest) {find : Matcher}
    (hfind : find.Modest) (shown : String) : src.Confines (src.pattern find shown) := by
  unfold Source.pattern
  refine (Confines.skip hignore).bind fun _ => .rest_bind fun cs c b d hc hok => ?_
  have hfail : src.Confines (do
      Cursor.fail ("/" ++ shown ++ "/")
      return none : Scan (Option (List Char))) := (Confines.fail _).bind fun _ => .pure _
  cases hfound : find cs with
  | none =>
    rw [hfound] at hok
    exact hfail c b d (by omega) hok
  | some place =>
    rw [hfound] at hok
    obtain ⟨start, found⟩ := place
    cases start with
    | succ start => exact hfail c b d (by omega) hok
    | zero =>
      obtain ⟨_, e, hadvance, hlast⟩ := bind_eq_ok.1 hok
      cases hlast
      obtain ⟨_, rfl⟩ := Cursor.advance_eq_ok.1 hadvance
      have : Text.byteLength found ≤ Text.byteLength cs := hfind cs _ hfound
      show c.offset + Text.byteLength found ≤ src.size
      omega

end Source

/-! ## 2. Recognizers that stay in the text -/

namespace Recognizer

variable {r r' : Recognizer} {limit : Nat}

theorem Within.ofScan {src : Source} {scan : Scan (Option (List Char))} (h : src.Confines scan) :
    Within src.size (ofScan scan) := by
  intro o next ho hnext
  rw [Recognizer.ofScan] at hnext
  split at hnext
  · next found c hok =>
    cases hnext
    exact h { offset := o } _ c ho hok
  · cases hnext
  · cases hnext

theorem Within.either (h : r.Within limit) (h' : r'.Within limit) :
    (r.either r').Within limit := by
  intro o next ho hnext
  rw [Recognizer.either] at hnext
  split at hnext
  · exact h' o next ho hnext
  · exact h o next ho hnext

theorem Within.both (h : r.Within limit) (h' : r'.Within limit) : (r.both r').Within limit := by
  intro o next ho hnext
  rw [Recognizer.both] at hnext
  split at hnext
  · next mid hmid => exact h' mid next (h o mid ho hmid) hnext
  · exact h o next ho hnext

theorem Within.maybe (h : r.Within limit) : r.maybe.Within limit := by
  intro o next ho hnext
  rw [Recognizer.maybe] at hnext
  split at hnext
  · cases hnext
    exact ho
  · exact h o next ho hnext

theorem Within.many (h : r.Within limit) : (r.many limit).Within limit := by
  intro o last ho hlast
  rw [Recognizer.many] at hlast
  cases hiter : r.iterate limit o with
  | error f => rw [hiter] at hlast; contradiction
  | ok last' =>
    rw [hiter] at hlast
    cases hlast
    exact iterate_induction (motive := fun o last => o ≤ limit → last ≤ limit)
      (fun _ _ ho => ho) (fun _ _ _ _ hmoved ih _ => ih hmoved.2)
      (fun o next hr _ ho => h o next ho hr) o hiter ho

/-- A repetition ends where what is repeated is not found or does not get on; the limit plays no
    part in that if nothing reaches beyond it. -/
theorem iterate_eq (hforward : r.Forward) (hwithin : r.Within limit) {o : Nat} (ho : o ≤ limit) :
    r.iterate limit o = match r o with
      | .error f => .error f
      | .ok none => .ok o
      | .ok (some next) => if next = o then .ok o else r.iterate limit next := by
  rw [iterate]
  cases hr : r o with
  | error f => rfl
  | ok found =>
    cases found with
    | none => rfl
    | some next =>
      have hfrom := hforward o next hr
      have hto := hwithin o next ho hr
      by_cases heq : next = o
      · simp [heq]
      · have hon : o < next ∧ next ≤ limit := ⟨by omega, hto⟩
        simp [heq, hon]

end Recognizer

/-- Running an expression does not reach beyond the end of the text if the matchers and the rules do
    not. -/
theorem Expr.within_recognize {src : Source} {find : String → Matcher} {rule : Name → Recognizer}
    (hignore : ∀ find, src.ignore = some find → find.Modest)
    (hfind : ∀ source, (find source).Modest) (hrule : ∀ name, (rule name).Within src.size)
    (e : Expr) : (e.recognize src find rule).Within src.size := by
  induction e with
  | choice left right ihl ihr => exact ihl.either ihr
  | sequence left right ihl ihr => exact ihl.both ihr
  | optional inner ih => exact ih.maybe
  | repetition inner ih => exact ih.many
  | group inner ih => exact ih
  | reference label target => exact hrule target
  | literal label text => exact .ofScan (.literal hignore text)
  | pattern label source => exact .ofScan (.pattern hignore (hfind source) source)

/-- Running a rule does not reach beyond the end of the text. -/
theorem Grammar.within_recognize (g : Grammar) {src : Source} {find : String → Matcher}
    (hignore : ∀ find, src.ignore = some find → find.Modest)
    (hfind : ∀ source, (find source).Modest) (depth : Nat) (name : Name) :
    (g.recognize src find depth name).Within src.size := by
  induction depth generalizing name with
  | zero => exact fun o next _ hnext => by cases hnext
  | succ depth ih =>
    rw [Grammar.recognize]
    split
    · exact fun o next _ hnext => by cases hnext
    · exact Expr.within_recognize hignore hfind ih _

/-- A repetition in a rule goes on until its body is not found or does not get on. -/
theorem Expr.recognize_repetition (g : Grammar) {src : Source} {find : String → Matcher}
    (hignore : ∀ find, src.ignore = some find → find.Modest)
    (hfind : ∀ source, (find source).Modest) (depth : Nat) (body : Expr) {o : Nat}
    (ho : o ≤ src.size) :
    let rule := g.recognize src find depth
    (Expr.repetition body).recognize src find rule o =
      match body.recognize src find rule o with
      | .error f => .error f
      | .ok none => .ok (some o)
      | .ok (some next) =>
        if next = o then .ok (some o) else (Expr.repetition body).recognize src find rule next := by
  intro rule
  have hrule : ∀ name, (rule name).Within src.size := g.within_recognize hignore hfind depth
  have hbody := Recognizer.iterate_eq (body.forward_recognize (g.forward_recognize depth))
    (body.within_recognize hignore hfind hrule) ho
  show some <$> Recognizer.iterate src.size (body.recognize src find rule) o = _
  rw [hbody]
  cases body.recognize src find rule o with
  | error f => rfl
  | ok found =>
    cases found with
    | none => rfl
    | some next =>
      by_cases heq : next = o
      · simp only [if_pos heq]
        rfl
      · simp only [if_neg heq]
        rfl

end Ebnf
