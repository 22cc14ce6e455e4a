import Ebnf.Proofs.Numbering
import Ebnf.Proofs.Ownership
import Ebnf.Proofs.Reordering

/-!
# Names of properties are identifiers

Whatever a text holds, what is made of it is made of characters that may continue an identifier, and
an underscore goes in front where the first of them may not start one. An identifier stays as it is.
So where the rules go by identifiers, the properties do: a name is that of a rule, made from a label
or a literal, numbered, or the one that all proxies share. Which characters these are is left to the
standard, but for a few of the first 128.

* `Text.isIdentifier_identifier`, `Text.identifier_eq`: what is made of a text;
* `Build.mem_distinctNames`: where a name that is given out comes from;
* `Expr.identifiers_plan`: the names that a rule asks for;
* `property_names_identifiers`: all names of a model that was built.
-/

namespace Ebnf

namespace Text

variable [Unicode.Xid]

/-! ## 1. Characters and words -/

/-- Whether all characters of a text may continue an identifier. -/
def isWord (cs : List Char) : Bool :=
  cs.all Unicode.isXidContinue

theorem isWord_iff {cs : List Char} :
    isWord cs = true ↔ ∀ c ∈ cs, Unicode.isXidContinue c = true :=
  List.all_eq_true

@[simp] theorem isWord_append (cs ds : List Char) : isWord (cs ++ ds) = (isWord cs && isWord ds) :=
  List.all_append

/-- Letters, digits and underscores make up a word. -/
theorem isWord_of_ascii (hxid : Unicode.Xid.Standard) {cs : List Char}
    (h : cs.all (fun c => c.isAlphanum || c = '_') = true) : isWord cs = true := by
  refine isWord_iff.2 fun c hc => ?_
  have hascii := List.all_eq_true.1 h c hc
  rw [Char.isAlphanum, Bool.or_eq_true, Bool.or_eq_true, decide_eq_true_eq] at hascii
  rcases hascii with (hletter | hdigit) | rfl
  · exact hxid.letter c hletter
  · exact hxid.digit c hdigit
  · exact hxid.underscore

/-- The underscore may continue an identifier, so what is kept of a text may. -/
theorem isWordChar_eq (hxid : Unicode.Xid.Standard) (c : Char) :
    isWordChar c = Unicode.isXidContinue c := by
  unfold isWordChar
  by_cases hc : c = '_'
  · rw [hc, hxid.underscore, decide_eq_true rfl, Bool.true_or]
  · rw [decide_eq_false hc, Bool.false_or]

/-- An identifier starts with a character that may also continue one. -/
theorem isWord_of_isIdentifierChars (hxid : Unicode.Xid.Standard) {cs : List Char}
    (h : isIdentifierChars cs = true) : isWord cs = true := by
  cases cs with
  | nil => rfl
  | cons c cs =>
    rw [isIdentifierChars, Bool.and_eq_true, Bool.or_eq_true, decide_eq_true_eq] at h
    refine isWord_iff.2 fun d hd => ?_
    rcases List.mem_cons.1 hd with rfl | hd
    · rcases h.1 with rfl | hstart
      · exact hxid.underscore
      · exact hxid.continues d hstart
    · exact List.all_eq_true.1 h.2 d hd

/-- What follows an identifier within a word leaves it an identifier. -/
theorem isIdentifierChars_append {cs ds : List Char} (h : isIdentifierChars cs = true)
    (hds : isWord ds = true) : isIdentifierChars (cs ++ ds) = true := by
  cases cs with
  | nil => contradiction
  | cons c cs =>
    rw [isIdentifierChars, Bool.and_eq_true] at h
    rw [List.cons_append, isIdentifierChars, Bool.and_eq_true, List.all_append, h.2]
    exact ⟨h.1, hds⟩

/-! ## 2. The pieces of a name -/

theorem isWord_lowerHex (hxid : Unicode.Xid.Standard) (n : Nat) : isWord (lowerHex n) = true := by
  have hdigit : ∀ k < 16, isWord [Nat.digitChar k] = true := by
    intro k hk
    refine isWord_of_ascii hxid ?_
    revert k
    decide
  unfold lowerHex
  induction n using Nat.strongRecOn with
  | ind n ih =>
    rw [Nat.toDigits_eq_if (by decide)]
    split
    · next hlt => exact hdigit n hlt
    · next hlt =>
      rw [isWord_append, ih (n / 16) (by omega), Bool.true_and]
      exact hdigit _ (Nat.mod_lt n (by decide))

theorem isWord_codePointWord (hxid : Unicode.Xid.Standard) (c : Char) :
    isWord (codePointWord c) = true := by
  refine isWord_iff.2 fun d hd => ?_
  rw [codePointWord, List.leftpad] at hd
  rcases List.mem_cons.1 hd with rfl | hd
  · exact hxid.letter 'u' rfl
  · rcases List.mem_append.1 hd with hzero | hhex
    · rw [List.eq_of_mem_replicate hzero]
      exact hxid.digit '0' rfl
    · exact isWord_iff.1 (isWord_lowerHex hxid c.toNat) d hhex

theorem isWord_punctuationWord? (hxid : Unicode.Xid.Standard) {c : Char} {word : String}
    (h : punctuationWord? c = some word) : isWord word.toList = true := by
  refine isWord_of_ascii hxid ?_
  unfold punctuationWord? at h
  split at h
  all_goals first
    | exact absurd h (Option.some_ne_none word).symm
    | obtain rfl := Option.some.inj h
      decide

/-- What a character outside words contributes to a name is a word. -/
theorem isWord_of_mem_spell (hxid : Unicode.Xid.Standard) {c : Char} {word : List Char}
    (h : word ∈ spell c) : isWord word = true := by
  unfold spell at h
  split at h
  · exact absurd h List.not_mem_nil
  · split at h
    · next named hnamed =>
      rw [List.mem_singleton.1 h]
      exact isWord_punctuationWord? hxid hnamed
    · rw [List.mem_singleton.1 h]
      exact isWord_codePointWord hxid c

/-- The pieces of a name are words, if what was read since the last one is. -/
theorem isWord_of_mem_pieces (hxid : Unicode.Xid.Standard) {cs : List Char} :
    ∀ {run : List Char}, isWord run = true → ∀ piece ∈ pieces run cs, isWord piece = true := by
  have hlast : ∀ {run piece : List Char}, isWord run = true →
      piece ∈ (if run = [] then [] else [run]) → isWord piece = true := by
    intro run piece hrun hpiece
    split at hpiece
    · exact absurd hpiece List.not_mem_nil
    · rwa [List.mem_singleton.1 hpiece]
  induction cs with
  | nil => exact fun hrun piece hpiece => hlast hrun hpiece
  | cons c cs ih =>
    intro run hrun piece hpiece
    rw [pieces] at hpiece
    split at hpiece
    · next hc =>
      have hword : isWord [c] = true := isWord_iff.2 fun d hd =>
        List.mem_singleton.1 hd ▸ isWordChar_eq hxid c ▸ hc
      exact ih (by rw [isWord_append, hrun, hword, Bool.true_and]) piece hpiece
    · rw [List.append_assoc, List.mem_append, List.mem_append] at hpiece
      rcases hpiece with hpiece | hpiece | hpiece
      · exact hlast hrun hpiece
      · exact isWord_of_mem_spell hxid hpiece
      · exact ih rfl piece hpiece

/-- Words joined with underscores are a word. -/
theorem isWord_intercalate (hxid : Unicode.Xid.Standard) {ws : List (List Char)}
    (h : ∀ w ∈ ws, isWord w = true) : isWord (['_'].intercalate ws) = true := by
  induction ws with
  | nil => rfl
  | cons w ws ih =>
    have hw := h w List.mem_cons_self
    cases ws with
    | nil => rwa [List.intercalate_singleton]
    | cons w' ws =>
      have hrest := ih fun w hw => h w (List.mem_cons_of_mem _ hw)
      have hline : isWord ['_'] = true := isWord_of_ascii hxid rfl
      rw [List.intercalate_cons_cons, isWord_append, isWord_append, hw, hrest, hline]
      rfl

/-- A word falls into no pieces. -/
theorem pieces_eq (hxid : Unicode.Xid.Standard) {cs : List Char} (h : isWord cs = true) :
    ∀ run, pieces run cs = if run ++ cs = [] then [] else [run ++ cs] := by
  induction cs with
  | nil => exact fun run => by rw [pieces, List.append_nil]
  | cons c cs ih =>
    intro run
    have hc : isWordChar c = true := by
      rw [isWordChar_eq hxid]
      exact isWord_iff.1 h c List.mem_cons_self
    have hcs : isWord cs = true := isWord_iff.2 fun d hd =>
      isWord_iff.1 h d (List.mem_cons_of_mem _ hd)
    rw [pieces, if_pos hc, ih hcs, List.append_assoc, List.singleton_append]

/-! ## 3. Identifiers -/

/-- What a word is made into is an identifier. -/
theorem isIdentifierChars_repair {cs : List Char} (h : isWord cs = true) :
    isIdentifierChars (repair cs) = true := by
  unfold repair
  split
  · rfl
  · split
    · assumption
    · rw [isIdentifierChars, Bool.and_eq_true]
      exact ⟨rfl, h⟩

/-- Whatever a text holds, what is made of it is an identifier. -/
theorem isIdentifier_identifier (hxid : Unicode.Xid.Standard) (s : String) :
    isIdentifier (identifier s) = true := by
  rw [isIdentifier, identifier, String.toList_ofList]
  exact isIdentifierChars_repair (isWord_intercalate hxid (isWord_of_mem_pieces hxid rfl))

/-- An identifier stays as it is. -/
theorem identifier_eq (hxid : Unicode.Xid.Standard) {s : String} (h : isIdentifier s = true) :
    identifier s = s := by
  have hne : s.toList ≠ [] := by
    intro hnil
    rw [isIdentifier, hnil] at h
    contradiction
  have hchars : isIdentifierChars s.toList = true := h
  rw [identifier, pieces_eq hxid (isWord_of_isIdentifierChars hxid hchars), List.nil_append,
    if_neg hne, List.intercalate_singleton, repair, if_neg hne, if_pos hchars, String.ofList_toList]

/-- An identifier with a number at its end is one too. -/
theorem isIdentifier_numbered (hxid : Unicode.Xid.Standard) {name : Name}
    (h : isIdentifier name = true) (i : Nat) : isIdentifier (Build.numbered name i) = true := by
  rw [isIdentifier, Build.numbered, String.toList_append]
  refine isIdentifierChars_append h (isWord_iff.2 fun c hc => ?_)
  rw [Nat.toString_eq_repr, Nat.toList_repr] at hc
  exact hxid.digit c (Nat.isDigit_of_mem_toDigits (by decide) (by decide) hc)

end Text

open Text (isIdentifier isWord)

/-! ## 4. Names in a rule -/

namespace Build

/-- A name that is given out is one of those asked for, perhaps with a number. -/
theorem mem_distinctNames {names : List Name} {new : Name} (h : new ∈ distinctNames names) :
    ∃ name ∈ names, new = name ∨ ∃ i, new = numbered name i := by
  have hassigned : ∀ {rest taken : List Name} {next : List (Name × Nat)},
      new ∈ assignNames names taken next rest →
        ∃ name ∈ rest, new = name ∨ ∃ i, new = numbered name i := by
    intro rest
    induction rest with
    | nil => exact fun h => absurd h List.not_mem_nil
    | cons name rest ih =>
      intro taken next h
      rw [assignNames] at h
      split at h
      all_goals
        rcases List.mem_cons.1 h with rfl | h
        · first
            | exact ⟨_, List.mem_cons_self, .inl rfl⟩
            | exact ⟨_, List.mem_cons_self, .inr ⟨_, rfl⟩⟩
        · obtain ⟨asked, hasked, hnew⟩ := ih h
          exact ⟨asked, List.mem_cons_of_mem _ hasked, hnew⟩
  exact hassigned h

section

variable [Unicode.Xid]

theorem isIdentifier_of_mem_distinctNames (hxid : Unicode.Xid.Standard) {names : List Name}
    (h : ∀ name ∈ names, isIdentifier name = true) {new : Name} (hnew : new ∈ distinctNames names) :
    isIdentifier new = true := by
  obtain ⟨name, hname, rfl | ⟨i, rfl⟩⟩ := mem_distinctNames hnew
  · exact h _ hname
  · exact Text.isIdentifier_numbered hxid (h name hname) i

/-- The name that proxies share starts with a letter. -/
theorem isIdentifier_alternativeName (hxid : Unicode.Xid.Standard)
    (hletters : ∀ c : Char, c.isAlpha = true → Unicode.isXidStart c = true) :
    isIdentifier alternativeName = true := by
  have hname : alternativeName.toList = 'a' :: "lternative".toList := by decide
  have hrest : isWord "lternative".toList = true := Text.isWord_of_ascii hxid (by decide)
  rw [isIdentifier, hname, Text.isIdentifierChars, hletters 'a' rfl, Bool.or_true, Bool.true_and]
  exact hrest

theorem isIdentifier_labelOr (hxid : Unicode.Xid.Standard) {name : Name}
    (h : isIdentifier name = true) (label : Option Name) :
    isIdentifier (labelOr label name) = true := by
  cases label with
  | none => exact h
  | some label => exact Text.isIdentifier_identifier hxid label

theorem isIdentifier_literalName? (hxid : Unicode.Xid.Standard) {entity name : Name}
    (hentity : isIdentifier entity = true) {label : Option Name} {text : String} {place : Place}
    (h : literalName? entity label text place = some name) : isIdentifier name = true := by
  unfold literalName? at h
  split at h
  · split at h
    · contradiction
    · rw [← Option.some.inj h]
      exact Text.isIdentifier_identifier hxid _
  · split at h
    · rw [← Option.some.inj h]
      exact Text.isIdentifier_identifier hxid _
    · split at h
      · rwa [← Option.some.inj h]
      · contradiction

end

end Build

/-- The names that several plans ask for are those that each of them asks for. -/
theorem Plan.mem_slotsOf {ps : List Plan} {name : Name} :
    name ∈ slotsOf ps ↔ ∃ p ∈ ps, name ∈ p.slots := by
  induction ps with
  | nil => simp [slotsOf]
  | cons p ps ih => rw [slotsOf, List.mem_append, ih, List.exists_mem_cons_iff]

/-- A rule asks for identifiers, if it is named by one and refers to others that are. -/
theorem Expr.identifiers_plan [Unicode.Xid] (hxid : Unicode.Xid.Standard) {entity : Name}
    (hentity : isIdentifier entity = true) (e : Expr) :
    ∀ place, (∀ target ∈ e.references, isIdentifier target = true) →
      ∀ name ∈ (e.plan entity place).slots, isIdentifier name = true := by
  have hparts : ∀ (es : List Expr) (place : Build.Place),
      (∀ e ∈ es, ∀ place, (∀ target ∈ e.references, isIdentifier target = true) →
        ∀ name ∈ (e.plan entity place).slots, isIdentifier name = true) →
      (∀ target ∈ es.flatMap Expr.references, isIdentifier target = true) →
      ∀ name ∈ Plan.slotsOf (es.map (Expr.plan entity place)), isIdentifier name = true := by
    intro es place ih htargets name hname
    obtain ⟨p, hp, hname⟩ := Plan.mem_slotsOf.1 hname
    obtain ⟨e, he, rfl⟩ := List.mem_map.1 hp
    exact ih e he place (fun target ht => htargets target (List.mem_flatMap.2 ⟨e, he, ht⟩)) name
      hname
  induction e using Expr.chainInduction with
  | choice left right ih =>
    intro place htargets
    rw [Expr.plan_choice, Plan.slots]
    refine hparts _ _ ih ?_
    rwa [List.flatMap_append, Expr.flatMap_references_alternatives,
      Expr.flatMap_references_alternatives]
  | sequence left right ih =>
    intro place htargets
    rw [Expr.plan_sequence, Plan.slots]
    refine hparts _ _ ih ?_
    rwa [List.flatMap_append, Expr.flatMap_references_members, Expr.flatMap_references_members]
  | optional inner ih =>
    intro place
    rw [Expr.plan, Plan.slots_withMods]
    exact ih _
  | repetition inner ih =>
    intro place
    rw [Expr.plan, Plan.slots_withMods]
    exact ih _
  | group inner ih =>
    intro place
    rw [Expr.plan]
    exact ih place
  | reference label target =>
    intro place htargets name hname
    rw [Expr.plan] at hname
    rw [List.mem_singleton.1 hname]
    exact Build.isIdentifier_labelOr hxid (htargets target (List.mem_singleton_self _)) label
  | literal label text =>
    intro place _ name hname
    rw [Expr.plan] at hname
    exact Build.isIdentifier_literalName? hxid hentity (Option.mem_toList.1 hname)
  | pattern label source =>
    intro place _ name hname
    rw [Expr.plan] at hname
    rw [List.mem_singleton.1 hname]
    exact Build.isIdentifier_labelOr hxid hentity label

/-! ## 5. Names in a model -/

section

variable [Unicode.Xid] {g : Grammar} {m : Model}

/-- All rules go by identifiers. -/
def Grammar.Identified (g : Grammar) : Prop :=
  ∀ r ∈ g.rules, isIdentifier r.name = true

instance (g : Grammar) : Decidable g.Identified :=
  inferInstanceAs (Decidable (∀ r ∈ g.rules, isIdentifier r.name = true))

namespace Build

/-- Entities go by the names of rules. -/
theorem Reached.isIdentifier_entity {built : Prop} (h : Reached g m built) (hg : g.Identified)
    {n : Name} (hn : n ∈ m.names) : isIdentifier n = true := by
  obtain ⟨r, hr⟩ := (h.rules.names n).1 hn
  obtain ⟨hmem, rfl⟩ := Grammar.rule?_eq_some hr
  exact hg r hmem

/-- What is referred to in a rule is an entity. -/
theorem Reached.mem_names_of_reference (h : Reached g m True) {site : Name → Site}
    (hsited : m.Sited site m.names) {e : Entity} (he : e ∈ m.entities) {target : Name}
    (htarget : target ∈ (site e.name).plan.references) : target ∈ m.names := by
  obtain ⟨i, x, hx, hreads⟩ := (hsited.hosts_of_mem he).stands.exists_target htarget
  exact h.closed i x target hx hreads

/-- The names given to the properties of an entity are identifiers. -/
theorem Reached.isIdentifier_site (h : Reached g m True) (hxid : Unicode.Xid.Standard)
    (hg : g.Identified) {site : Name → Site} (hsited : m.Sited site m.names) {e : Entity}
    (he : e ∈ m.entities) :
    ∀ name ∈ (site e.name).names, isIdentifier name = true := by
  intro name hname
  obtain ⟨r, _, hplan⟩ := hsited.plan_of_mem he
  have hentity : isIdentifier e.name = true :=
    h.isIdentifier_entity hg (List.mem_map_of_mem he)
  have htargets : ∀ target ∈ r.body.references, isIdentifier target = true := by
    intro target htarget
    have hsame : (r.body.plan e.name .top).references = r.body.references :=
      r.body.references_plan .top
    rw [← hsame, ← hplan] at htarget
    exact h.isIdentifier_entity hg (h.mem_names_of_reference hsited he htarget)
  refine isIdentifier_of_mem_distinctNames hxid (fun asked hasked => ?_) hname
  rw [hplan] at hasked
  exact r.body.identifiers_plan hxid hentity .top htargets asked hasked

/-- The current properties of an entity are listed under identifiers. -/
theorem Reached.isIdentifier_current (h : Reached g m True) (hxid : Unicode.Xid.Standard)
    (hletters : ∀ c : Char, c.isAlpha = true → Unicode.isXidStart c = true) (hg : g.Identified)
    {e : Entity} (he : e ∈ m.entities) {key : Name} {id : PropertyId}
    (hkey : (key, id) ∈ e.properties) : isIdentifier key = true := by
  obtain ⟨site, hsited⟩ := h.bodies trivial
  rw [(hsited.hosts_of_mem he).current] at hkey
  cases hproxy : (site e.name).proxy with
  | none =>
    rw [Site.current_plain hproxy] at hkey
    obtain ⟨k, _, hname, _⟩ := Site.mem_zip_names hkey
    exact h.isIdentifier_site hxid hg hsited he key (List.mem_of_getElem? hname)
  | some entry =>
    rw [Site.current_proxy hproxy, List.mem_singleton] at hkey
    obtain ⟨rfl, _⟩ := Prod.mk.inj hkey
    exact isIdentifier_alternativeName hxid hletters

end Build

/-- What is made of a text is an identifier, be it for itself or for the flag of a literal, and an
    identifier stays as it is, so making one twice is making it once. In the model of a grammar
    whose rules go by identifiers every property does: those that entities list, be they numbered,
    flags or proxies, and those that a proxy has taken over. All proxies have a name that starts
    with a letter, so letters must be able to start an identifier. -/
theorem property_names_identifiers (hxid : Unicode.Xid.Standard) :
    (∀ s : String, isIdentifier (Text.identifier s) = true ∧
      isIdentifier (Text.witnessName s) = true ∧
      (isIdentifier s = true → Text.identifier s = s) ∧
      Text.identifier (Text.identifier s) = Text.identifier s) ∧
    ((∀ c : Char, c.isAlpha = true → Unicode.isXidStart c = true) →
      ∀ g m, Model.ofGrammar g = .ok m → g.Identified →
        (∀ p ∈ m.properties, isIdentifier p.name = true) ∧
        ∀ e ∈ m.entities, ∀ key id, (key, id) ∈ e.properties → isIdentifier key = true) := by
  refine ⟨fun s => ⟨Text.isIdentifier_identifier hxid s, Text.isIdentifier_identifier hxid _,
    Text.identifier_eq hxid, Text.identifier_eq hxid (Text.isIdentifier_identifier hxid s)⟩, ?_⟩
  intro hletters g m hmodel hg
  have hreached := (Build.reached_ofGrammar hmodel).1
  obtain ⟨_, site, hsited, hfilled⟩ := Build.exists_filled hmodel
  refine ⟨fun p hp => ?_, fun e he key id hkey =>
    hreached.isIdentifier_current hxid hletters hg he hkey⟩
  obtain ⟨k, hk, rfl⟩ := Array.mem_iff_getElem.1 hp
  have hstored : m.properties[k]? = some m.properties[k] := Array.getElem?_eq_getElem hk
  obtain ⟨n, hn, hplace⟩ := hfilled.properties k hk
  obtain ⟨e, he, rfl⟩ := List.mem_map.1 hn
  have hosts := hsited.hosts_of_mem he
  rcases hplace with ⟨j, hj, rfl⟩ | ⟨choice, hproxy⟩
  · have hlt : j < (site e.name).names.length := by rwa [Site.length_names]
    obtain ⟨p, hp, hname⟩ := hosts.named j _ (List.getElem?_eq_getElem hlt)
    obtain rfl := Option.some.inj (hstored.symm.trans hp)
    rw [hname]
    exact hreached.isIdentifier_site hxid hg hsited he _ (List.getElem_mem hlt)
  · have hproxied := (hosts.chooses choice ⟨k⟩ hproxy).property
    rw [Option.some.inj (hstored.symm.trans hproxied)]
    exact Build.isIdentifier_alternativeName hxid hletters

end

namespace Spelled

/-- Numbers in a row, which two references of the same name lead to. A number is a mark that may be
    missing, with a label that is no identifier. -/
def grammar : Grammar where
  rules := [
    { name := "numbers",
      body := .repetition (.choice (.reference none "number") (.reference none "number")) },
    { name := "number", body := .optional (.literal (some "1st") "0") }]

def numbers : Entity where
  name := "numbers"
  rule := grammar.rule? "numbers"
  properties := [("alternative", ⟨3⟩)]
  action := some ⟨2⟩

def number : Entity where
  name := "number"
  rule := grammar.rule? "number"
  properties := [("_1st", ⟨2⟩)]
  action := some ⟨3⟩

/-- The model of the numbers. One property stands for both branches of the choice. -/
def model : Model where
  entities := [numbers, number]
  properties := #[
    { name := "number0", entity := "numbers", source := ⟨0⟩ },
    { name := "number1", entity := "numbers", source := ⟨1⟩ },
    { name := "_1st", entity := "number", source := ⟨3⟩ },
    { name := "alternative", entity := "numbers", source := ⟨2⟩, kind := .proxy [⟨0⟩, ⟨1⟩] }]
  actions := #[
    { kind := .entity "number", property := some ⟨0⟩, parent := some ⟨2⟩ },
    { kind := .entity "number", property := some ⟨1⟩, parent := some ⟨2⟩ },
    { kind := .any [⟨0⟩, ⟨1⟩], isPlural := true, property := some ⟨3⟩ },
    { kind := .literal "0", isOptional := true, isWitness := true, property := some ⟨2⟩ }]
  root := some "numbers"

theorem walk_eq (events : Array Event) (attached : List (Name × PropertyId)) :
    Build.walk ["numbers", "number"] [] ["numbers"] { model, events, attached } =
      .ok () { model, events, attached } := by
  have hnumbers : Build.discover numbers { model, events, attached } =
      .ok ["number", "number"] { model, events, attached } := by
    cbv
  have hnumber : Build.discover number { model, events, attached } =
      .ok [] { model, events, attached } := by
    cbv
  rw [Build.walk_cons (by decide) rfl hnumbers, List.append_nil,
    Build.walk_cons (by decide) rfl hnumber, List.nil_append, Build.walk_pass (by decide),
    Build.walk]
  rfl

theorem ofGrammar_eq : Model.ofGrammar grammar = .ok model :=
  Build.ofGrammar_of_walk (m := model) (by cbv) rfl
    fun events attached => ⟨_, _, walk_eq events attached⟩

end Spelled

/-- The names of the numbers by version 18: two with a number, which a proxy has taken over, its
    own, and one made from a label. -/
theorem property_names_identifiers_spelled :
    Unicode.Xid.Standard ∧ (∀ c : Char, c.isAlpha = true → Unicode.isXidStart c = true) ∧
    Model.ofGrammar Spelled.grammar = .ok Spelled.model ∧ Spelled.grammar.Identified ∧
    Text.isIdentifier "1st" = false ∧ Text.identifier "1st" = "_1st" ∧
    (∀ p ∈ Spelled.model.properties, isIdentifier p.name = true) ∧
    ∀ e ∈ Spelled.model.entities, ∀ key id, (key, id) ∈ e.properties →
      isIdentifier key = true := by
  have hxid : Unicode.Xid.Standard := Unicode.ascii_version18.toStandard
  have hletters : ∀ c : Char, c.isAlpha = true → Unicode.isXidStart c = true :=
    Unicode.ascii_version18.starts
  have hidentified : Spelled.grammar.Identified := by decide
  obtain ⟨hproperties, hkeys⟩ := (property_names_identifiers hxid).2 hletters Spelled.grammar
    Spelled.model Spelled.ofGrammar_eq hidentified
  exact ⟨hxid, hletters, Spelled.ofGrammar_eq, hidentified, by decide, by decide, hproperties,
    hkeys⟩

end Ebnf
