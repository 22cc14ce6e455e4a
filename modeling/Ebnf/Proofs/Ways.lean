import Ebnf.Proofs.Types

/-!
# The way of a value

A value that is read comes from an entity, through virtual entities that only pass it on: it is an
instance of that entity, or the text or the flag for which the entity stands. Where the declared
type of a property is a text or a flag, the values are of that type. Where it is an entity that is
not virtual, they are instances of just that one. Where it is a virtual entity, they come from one
to which it passes on; and so they do where the branches of a choice have no type in common, so that
the type is the owner of the choice. That is a special case of the first entity, unless there is a
choice on the way that repeats, or one that refers back.

* `Model.Passes`: what is read for a virtual entity is what was read for another;
* `Model.Through`, `Model.Gap`: ways from an entity on, and where there is no link on them;
* `Model.Hands.linked`: why there is no link;
* `Value.Of`, `Value.Conforms`: the entity that a value comes from, and values of a type;
* `Flows`, `Flows.fits`: what a reference yields has the type that the entity contributes.
-/

namespace Ebnf

open Relation (ReflTransGen)

/-! ## 1. Entities that pass values on -/

namespace Model

variable {g : Grammar} {m : Model} {n t x : Name}

/-- What is read for a virtual entity is what was read for another, to which its only property
    refers. -/
def Passes (m : Model) (n t : Name) : Prop :=
  m.isVirtual n = .ok true ∧ m.Hands n t

/-- The only property of an entity stands for the branches of a choice. -/
def Chooses (m : Model) (n : Name) (id : PropertyId) : Prop :=
  m.Only n id ∧ ∃ p, m.property id = .ok p ∧ p.isProxy = true

/-- A way from an entity, to which its only property refers, and from there on through virtual
    entities. -/
def Through (m : Model) (n x : Name) : Prop :=
  ∃ t, m.Hands n t ∧ ReflTransGen m.Passes t x

/-- Why an entity is no special case of one whose only property refers to it: the property repeats,
    or the other one is a special case of it. -/
def Barred (m : Model) (n t : Name) : Prop :=
  t ≠ n ∧ m.isA t n = false ∧ ((∃ id, m.Only n id ∧ m.isPlural id = .ok true) ∨ m.isA n t = true)

/-- On a way from an entity there is one that is no special case of the one before. -/
inductive Gap (m : Model) : Name → Name → Prop where
  | here {n t x : Name} (h : m.Hands n t) (hbarred : m.Barred n t)
    (hway : ReflTransGen m.Passes t x) : Gap m n x
  | further {n t x : Name} (h : m.Hands n t) (hvirtual : m.isVirtual t = .ok true)
    (hgap : Gap m t x) : Gap m n x

theorem Reachable.passes (h : m.Reachable n) (hpasses : m.Passes n t) : m.Reachable t :=
  h.leads hpasses.2.leads

/-- A special case of a special case is one. -/
theorem isA_trans {y z : Name} (h : m.isA x y = true) (h' : m.isA y z = true) :
    m.isA x z = true :=
  isA_iff.2 ((isA_iff.1 h).trans (isA_iff.1 h'))

/-- A virtual entity whose property refers to another one that it does not stand for the choice of
    has it as its sub. -/
theorem isA_of_isVirtual (hranked : m.Ranked) (hsurveyed : Build.Surveyed m)
    (hvirtual : m.isVirtual n = .ok true) {id : PropertyId} {p : Property} (honly : m.Only n id)
    (hp : m.property id = .ok p) (hplain : p.isProxy = false) (hrefers : m.Refers id t) :
    m.isA t n = true := by
  obtain ⟨e, key, id', he, hproperties, _, p', x, hp', hx, hfilled⟩ := of_isVirtual hvirtual
  have honly' : m.Only n id' := ⟨e, he, by rw [hproperties]; rfl⟩
  obtain rfl := honly.unique honly'
  obtain rfl := Except.ok.inj (hp.symm.trans hp')
  have htarget := (refers_plain hp hplain hx).1 hrefers
  rcases hfilled with hterminal | hsubs
  · rw [Action.target?] at htarget
    split at htarget
    · next hkind => rw [Action.isValueTerminal, hkind] at hterminal; contradiction
    · contradiction
  · obtain ⟨sub, hsub⟩ := List.exists_mem_of_ne_nil _ hsubs
    have hlink := hranked.super_of_mem_subs he hsub
    obtain ⟨id'', honly'', hrefers''⟩ := (hsurveyed.made sub n hlink).2.hands
    obtain rfl := honly.unique honly''
    -- there is just one entity to which the property refers
    obtain rfl := Option.some.inj (((refers_plain hp hplain hx).1 hrefers'').symm.trans htarget)
    exact isA_iff.2 (.single hlink)

/-- An entity that is virtual, or has the property of a choice only, has those as special cases to
    which that property refers, unless something bars it. -/
theorem Hands.linked [Unicode.Xid] (h : m.Hands n t) (hreached : Build.Reached g m True)
    (hsurveyed : Build.Surveyed m) (hn : m.Reachable n)
    (hpasses : m.isVirtual n = .ok true ∨ ∃ id, m.Chooses n id) :
    t = n ∨ m.isA t n = true ∨ m.Barred n t := by
  by_cases hself : t = n
  · exact .inl hself
  cases hlink : m.isA t n with
  | true => exact .inr (.inl rfl)
  | false =>
    refine .inr (.inr ⟨hself, hlink, ?_⟩)
    rcases hsurveyed.settled hreached hn t h with heq | hsub | hno
    · exact absurd heq hself
    · rw [hlink] at hsub
      contradiction
    · cases hno with
      | repeats only plural => exact .inl ⟨_, only, plural⟩
      | circle above => exact .inr above
      | terminal only property plain wraps =>
        obtain ⟨id, honly, hrefers⟩ := h
        obtain rfl := honly.unique only
        rcases hpasses with hvirtual | ⟨id', honly', p', hp', hproxy⟩
        · have hsub := isA_of_isVirtual hreached.ranked hsurveyed hvirtual honly property plain
            hrefers
          rw [hlink] at hsub
          contradiction
        · obtain rfl := honly.unique honly'
          obtain rfl := Except.ok.inj (property.symm.trans hp')
          rw [plain] at hproxy
          contradiction

/-- A way through virtual entities leads to special cases only, or has a gap. -/
theorem isA_or_gap [Unicode.Xid] (hreached : Build.Reached g m True) (hsurveyed : Build.Surveyed m)
    (hn : m.Reachable n) (h : ReflTransGen m.Passes n x) :
    x = n ∨ m.isA x n = true ∨ m.isVirtual n = .ok true ∧ m.Gap n x := by
  induction h using ReflTransGen.head_induction_on with
  | refl => exact .inl rfl
  | head hstep hway ih =>
    rename_i n t
    obtain ⟨hvirtual, hhands⟩ := hstep
    rcases hhands.linked hreached hsurveyed hn (.inl hvirtual) with rfl | hlink | hbarred
    · exact ih hn
    · rcases ih (hn.leads hhands.leads) with rfl | hsub | ⟨hvirtual', hgap⟩
      · exact .inr (.inl hlink)
      · exact .inr (.inl (isA_trans hsub hlink))
      · exact .inr (.inr ⟨hvirtual, .further hhands hvirtual' hgap⟩)
    · exact .inr (.inr ⟨hvirtual, .here hhands hbarred hway⟩)

/-- So does one whose first step is from a choice. -/
theorem Through.isA_or_gap [Unicode.Xid] (h : m.Through n x) (hreached : Build.Reached g m True)
    (hsurveyed : Build.Surveyed m) (hn : m.Reachable n)
    (hpasses : m.isVirtual n = .ok true ∨ ∃ id, m.Chooses n id) :
    x = n ∨ m.isA x n = true ∨ m.Gap n x := by
  obtain ⟨t, hhands, hway⟩ := h
  have hfurther := Model.isA_or_gap hreached hsurveyed (hn.leads hhands.leads) hway
  rcases hhands.linked hreached hsurveyed hn hpasses with rfl | hlink | hbarred
  · exact hfurther.imp_right (.imp_right And.right)
  · rcases hfurther with rfl | hsub | ⟨hvirtual, hgap⟩
    · exact .inr (.inl hlink)
    · exact .inr (.inl (isA_trans hsub hlink))
    · exact .inr (.inr (.further hhands hvirtual hgap))
  · exact .inr (.inr (.here hhands hbarred hway))

end Model

/-! ## 2. Values of a type -/

/-- A value comes from an entity: it is an instance, or what the entity stands for. -/
inductive Value.Of (m : Model) (x : Name) : Value → Prop where
  | node (fields : List (Name × Value)) (hvirtual : m.isVirtual x = .ok false) :
    Of m x (.node x fields)
  | text (s : String) (hvirtual : m.isVirtual x = .ok true)
    (htype : m.effectiveType x = .ok .text) : Of m x (.text s)
  | flag (b : Bool) (hvirtual : m.isVirtual x = .ok true)
    (htype : m.effectiveType x = .ok .boolean) : Of m x (.flag b)

/-- A value comes from an entity to which another one leads, and which is a special case of that
    one, if there is no gap on the way. -/
def Value.Passed (m : Model) (n : Name) (v : Value) : Prop :=
  ∃ x, v.Of m x ∧ m.Through n x ∧ (x = n ∨ m.isA x n = true ∨ m.Gap n x)

/-- A value is of a type. For the type of an entity it is an instance of that entity, or, if the
    entity is virtual, comes from one to which it leads. -/
def Value.Conforms (m : Model) (v : Value) : ValueType → Prop
  | .text => ∃ s, v = .text s
  | .boolean => ∃ b, v = .flag b
  | .entity n => (m.isVirtual n = .ok false ∧ ∃ fields, v = .node n fields) ∨
      (m.isVirtual n = .ok true ∧ v.Passed m n)

/-- A value is of a type, wherever the ways lead on which it comes. -/
def Value.Fits (m : Model) (v : Value) : ValueType → Prop
  | .text => ∃ s, v = .text s
  | .boolean => ∃ b, v = .flag b
  | .entity n => m.Reachable n ∧ ((m.isVirtual n = .ok false ∧ ∃ fields, v = .node n fields) ∨
      (m.isVirtual n = .ok true ∧ ∃ x, v.Of m x ∧ m.Through n x))

variable {g : Grammar} {m : Model}

/-- What comes along a way is of the type where the way starts. -/
theorem Value.Fits.conforms [Unicode.Xid] (hreached : Build.Reached g m True)
    (hsurveyed : Build.Surveyed m) {v : Value} {type : ValueType} (h : v.Fits m type) :
    v.Conforms m type := by
  cases type with
  | text => exact h
  | boolean => exact h
  | entity n =>
    obtain ⟨hn, hplain | ⟨hvirtual, x, hof, hway⟩⟩ := h
    · exact .inl hplain
    · exact .inr ⟨hvirtual, x, hof, hway, hway.isA_or_gap hreached hsurveyed hn (.inl hvirtual)⟩

/-! ## 3. What references yield -/

/-- What a reference to an entity may yield: an instance, or for a virtual entity what fills its
    property. -/
inductive Flows (m : Model) (site : Name → Site) : Name → Value → Prop where
  | node {t : Name} (fields : List (Name × Value)) (hvirtual : m.isVirtual t = .ok false) :
    Flows m site t (.node t fields)
  | own {t : Name} {v : Value} {symbol : Symbol} (hvirtual : m.isVirtual t = .ok true)
    (hfeeds : (site t).Feeds 0 symbol) (hgives : symbol.Gives (fun _ _ => False) v) :
    Flows m site t v
  | pass {t target : Name} {v : Value} (hvirtual : m.isVirtual t = .ok true)
    (hfeeds : (site t).Feeds 0 (.reference target)) (hflows : Flows m site target v) :
    Flows m site t v

/-- A leaf gives a value of its own, or one that was read for an entity. -/
theorem Symbol.Gives.own_or_reference {P : Name → Value → Prop} {symbol : Symbol} {v : Value}
    (h : symbol.Gives P v) :
    symbol.Gives (fun _ _ => False) v ∨ ∃ target, symbol = .reference target ∧ P target v := by
  cases symbol with
  | literal text witness => cases witness <;> exact .inl h
  | pattern source => exact .inl h
  | reference target => exact .inr ⟨target, rfl, h⟩

/-- What a leaf that is no reference gives is of the type of the leaf. -/
theorem Symbol.HasType.fits {symbol : Symbol} {seen : List Name} {type : ValueType} {v : Value}
    (htype : symbol.HasType m seen type) (hgives : symbol.Gives (fun _ _ => False) v) :
    v.Fits m type ∧ (type = .text ∨ type = .boolean) := by
  cases symbol with
  | literal text witness =>
    cases witness with
    | true =>
      obtain rfl : type = .boolean := htype
      exact ⟨hgives, .inr rfl⟩
    | false =>
      obtain rfl : type = .text := htype
      exact ⟨hgives, .inl rfl⟩
  | pattern source =>
    obtain rfl : type = .text := htype
    exact ⟨hgives, .inl rfl⟩
  | reference target => exact hgives.elim

namespace Flows

variable {site : Name → Site} {t : Name} {v : Value}

/-- A virtual entity passes on what its property refers to. -/
theorem passes [Unicode.Xid] (hsited : m.Sited site m.names) (hvirtual : m.isVirtual t = .ok true)
    {target : Name} (hfeeds : (site t).Feeds 0 (.reference target)) : m.Passes t target := by
  obtain ⟨e, id, p, tree, hwraps⟩ := hsited.wraps hvirtual
  obtain ⟨key, hproperties⟩ := hwraps.place
  have hplace : e.properties[0]? = some (key, id) := by rw [hproperties]; rfl
  have honly : m.Only t id := ⟨e, hwraps.entity, by rw [hproperties]; rfl⟩
  exact ⟨hvirtual, id, honly, (hwraps.hosts.refers_iff hplace).2 hfeeds⟩

/-- A virtual entity that is a text or a flag of its own has that type on every way that has not
    come back to it. -/
theorem own_type [Unicode.Xid] (hsited : m.Sited site m.names) (htypable : m.Typable)
    {symbol : Symbol} (hvirtual : m.isVirtual t = .ok true) (hfeeds : (site t).Feeds 0 symbol)
    (hgives : symbol.Gives (fun _ _ => False) v) {seen : List Name} (hseen : t ∉ seen) :
    ∃ type, m.entityType seen t = .ok type ∧ v.Fits m type ∧ (type = .text ∨ type = .boolean) := by
  obtain ⟨e, id, p, tree, hwraps⟩ := hsited.wraps hvirtual
  obtain ⟨type, htype, hhas | ⟨_, _, _, hrefs⟩⟩ := hwraps.source.typed htypable (t :: seen)
  · exact ⟨type, Model.entityType_wrapped hvirtual hseen hwraps.wrapped htype,
      (hhas symbol hfeeds).fits hgives⟩
  · obtain ⟨target, rfl⟩ := hrefs symbol hfeeds
    exact hgives.elim

/-- What a reference yields comes from an entity to which the referenced one passes on. -/
theorem exists_of [Unicode.Xid] (hsited : m.Sited site m.names) (htypable : m.Typable)
    (h : Flows m site t v) : ∃ x, v.Of m x ∧ ReflTransGen m.Passes t x := by
  induction h with
  | node fields hvirtual => exact ⟨_, .node fields hvirtual, .refl⟩
  | own hvirtual hfeeds hgives =>
    rename_i t v symbol
    have hseen : t ∉ ([] : List Name) := List.not_mem_nil
    obtain ⟨type, htype, hfits, hplain⟩ :=
      own_type hsited htypable hvirtual hfeeds hgives hseen
    refine ⟨t, ?_, .refl⟩
    rcases hplain with rfl | rfl
    · obtain ⟨s, rfl⟩ := hfits
      exact .text s hvirtual htype
    · obtain ⟨b, rfl⟩ := hfits
      exact .flag b hvirtual htype
  | pass hvirtual hfeeds hflows ih =>
    obtain ⟨x, hof, hway⟩ := ih
    exact ⟨x, hof, .head (passes hsited hvirtual hfeeds) hway⟩

/-- Everything that fills the property of an entity is a reference. -/
def Refers (site : Name → Site) (n : Name) : Prop :=
  ∀ symbol, (site n).Feeds 0 symbol → ∃ target, symbol = .reference target

/-- What a reference yields is of the type that the referenced entity contributes, on any way
    through entities that refer to others. -/
theorem fits [Unicode.Xid] (hsited : m.Sited site m.names) (htypable : m.Typable)
    (h : Flows m site t v) :
    m.Reachable t → ∀ seen type, (∀ s ∈ seen, Refers site s) → m.entityType seen t = .ok type →
      v.Fits m type := by
  induction h with
  | node fields hvirtual =>
    intro hreach seen type _ htype
    rw [Model.entityType_plain hvirtual] at htype
    obtain rfl := Except.ok.inj htype
    exact ⟨hreach, .inl ⟨hvirtual, fields, rfl⟩⟩
  | own hvirtual hfeeds hgives =>
    intro hreach seen type hseen htype
    rename_i t v symbol
    have hnew : t ∉ seen := by
      intro hmem
      obtain ⟨target, rfl⟩ := hseen t hmem symbol hfeeds
      exact hgives.elim
    obtain ⟨type', htype', hfits, _⟩ := own_type hsited htypable hvirtual hfeeds hgives hnew
    obtain rfl := Except.ok.inj (htype'.symm.trans htype)
    exact hfits
  | pass hvirtual hfeeds hflows ih =>
    intro hreach seen type hseen htype
    rename_i t target v
    have hpasses := passes hsited hvirtual hfeeds
    obtain ⟨x, hof, hway⟩ := hflows.exists_of hsited htypable
    have hback : v.Fits m (.entity t) := ⟨hreach, .inr ⟨hvirtual, x, hof, target, hpasses.2, hway⟩⟩
    by_cases hmem : t ∈ seen
    · rw [Model.entityType_seen hvirtual hmem] at htype
      obtain rfl := Except.ok.inj htype
      exact hback
    · obtain ⟨e, id, p, tree, hwraps⟩ := hsited.wraps hvirtual
      obtain ⟨type', htype', hcases⟩ := hwraps.source.typed htypable (t :: seen)
      rw [Model.entityType_wrapped hvirtual hmem hwraps.wrapped htype'] at htype
      obtain rfl : type' = type := Except.ok.inj htype
      rcases hcases with hhas | ⟨rfl, _, _, _⟩
      · have hrefers : Refers site t := fun symbol hother =>
          hwraps.source.reference_of_reference hfeeds hother
        exact ih (hreach.passes hpasses) _ _ (List.forall_mem_cons.2 ⟨hrefers, hseen⟩)
          (hhas _ hfeeds)
      · rw [hwraps.name_eq]
        exact hback

/-- A value that fills a property of an entity has the type of the property, or that is the entity
    itself, for which the property makes a choice. -/
theorem fits_of_gives [Unicode.Xid] (hsited : m.Sited site m.names) (htypable : m.Typable)
    {e : Entity} (he : m.entity? e.name = some e) (hreach : m.Reachable e.name)
    (hosts : (site e.name).Hosts m e) {place : Nat} {key : Name} {id : PropertyId}
    (hplace : e.properties[place]? = some (key, id)) :
    ∃ type, m.propertyType id = .ok (some type) ∧ ∀ symbol v, (site e.name).Feeds place symbol →
      symbol.Gives (Flows m site) v → v.Fits m type ∨
        type = .entity e.name ∧ m.Chooses e.name id ∧ ∃ x, v.Of m x ∧ m.Through e.name x := by
  obtain ⟨p, tree, hp, htree, hsource⟩ := hosts.exists_source hplace
  obtain ⟨type, htype, hcases⟩ := hsource.typed htypable []
  have hdeclared : m.propertyType id = .ok (some type) := by
    simp only [Model.propertyType, Model.actionType, hp, htree, bind, Except.bind]
    exact htype
  refine ⟨type, hdeclared, fun symbol v hfeeds hgives => ?_⟩
  have hid : id ∈ e.properties.ids :=
    List.mem_map.2 ⟨_, List.mem_of_getElem? hplace, rfl⟩
  rcases hgives.own_or_reference with hown | ⟨target, rfl, hflows⟩
  · rcases hcases with hhas | ⟨_, _, _, hrefs⟩
    · exact .inl ((hhas symbol hfeeds).fits hown).1
    · obtain ⟨target, rfl⟩ := hrefs symbol hfeeds
      exact hown.elim
  · have hrefers := (hosts.refers_iff hplace).2 hfeeds
    rcases hcases with hhas | ⟨rfl, halone, hproxy, _⟩
    · refine .inl (hflows.fits hsited htypable ?_ [] type ?_ (hhas _ hfeeds))
      · exact hreach.leads ⟨e, id, he, hid, hrefers⟩
      · exact fun s hs => absurd hs List.not_mem_nil
    · obtain ⟨x, hof, hway⟩ := hflows.exists_of hsited htypable
      have honly : m.Only e.name id := ⟨e, he, halone⟩
      exact .inr ⟨rfl, ⟨honly, p, hp, hproxy⟩, x, hof, target, ⟨id, honly, hrefers⟩, hway⟩

end Flows

end Ebnf
