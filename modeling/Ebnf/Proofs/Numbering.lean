import Mathlib
import Ebnf.Proofs.Site

/-!
# Which names properties get

A name asked for once is kept, and one asked for more often gets a number each time. The numbers
of a name go up, and none is passed over for nothing: its name was asked for once by another, or
given out before.

* `Build.Fits`: which name may be given next;
* `Build.Assigned`: the names given one after another;
* `Build.assigned_distinctNames`: each name given out is one that may be given next;
* `Model.Named`: the properties made since a model have got their names;
* `properties_named`: after compiling an expression all its properties get their names.
-/

namespace Ebnf

namespace Build

/-! ## 1. Numbers passed over -/

/-- A number that the search passes over would make a name already taken. -/
theorem taken_of_lt_freeIndex {name : Name} {taken : List Name} {i j : Nat} (hle : i ≤ j)
    (hlt : j < freeIndex name taken i) : numbered name j ∈ taken := by
  fun_induction freeIndex name taken i with
  | case1 taken i hmem ih =>
    rcases Nat.eq_or_lt_of_le hle with rfl | hle
    · exact hmem
    · exact List.mem_of_mem_erase (ih hle hlt)
  | case2 taken i _ => omega

/-! ## 2. Names given one after another -/

/-- The name `new` may be given for `name`, after the names `given` for those in `asked`; `all` are
    all the names asked for. -/
structure Fits (all asked given : List Name) (name new : Name) : Prop where
  /-- A name asked for once is kept. -/
  once : all.count name = 1 → new = name
  /-- A name asked for more often gets the least number above those it got before that makes a
      name of its own. -/
  again : 1 < all.count name → ∃ i, new = numbered name i ∧
    (∀ j, (name, numbered name j) ∈ asked.zip given → j < i) ∧
    ∀ j < i, all.count (numbered name j) = 1 ∨ numbered name j ∈ given

/-- For the names asked for, names are given one after another that fit. -/
inductive Assigned (all : List Name) : List Name → List Name → Prop where
  | nil : Assigned all [] []
  | snoc {asked given : List Name} {name new : Name} (before : Assigned all asked given)
      (fits : Fits all asked given name new) : Assigned all (asked ++ [name]) (given ++ [new])

/-- Each name asked for is given one. -/
theorem Assigned.length_eq {all asked given : List Name} (h : Assigned all asked given) :
    asked.length = given.length := by
  induction h with
  | nil => rfl
  | snoc _ _ ih => rw [List.length_append, List.length_append, ih]; rfl

/-- How far the search has come once the names `asked` have got the names `given`. -/
structure Searched (all asked given taken : List Name) (next : List (Name × Nat)) : Prop where
  /-- Only names asked for once and names given out are taken. -/
  reserved : ∀ n ∈ taken, all.count n = 1 ∨ n ∈ given
  /-- The numbers below the next one make names that are taken. -/
  passed : ∀ n, ∀ j < (next.lookup n).getD 0, numbered n j ∈ taken
  /-- The numbers a name has got are below the next one. -/
  used : ∀ n j, 1 < all.count n → (n, numbered n j) ∈ asked.zip given →
    j < (next.lookup n).getD 0

namespace Searched

variable {all asked given taken : List Name} {next : List (Name × Nat)} {name : Name}

/-- A name given out is taken. -/
theorem reserved_cons (h : Searched all asked given taken next) (new : Name) :
    ∀ n ∈ new :: taken, all.count n = 1 ∨ n ∈ given ++ [new] := by
  intro n hn
  rcases List.mem_cons.1 hn with rfl | hn
  · exact .inr (List.mem_append_right _ (List.mem_singleton_self _))
  · exact (h.reserved n hn).imp_right (List.mem_append_left _)

/-- Keeping a name asked for once leaves the search where it is. -/
theorem keep (h : Searched all asked given taken next) (hlength : asked.length = given.length)
    (honce : all.count name ≤ 1) :
    Searched all (asked ++ [name]) (given ++ [name]) (name :: taken) next where
  reserved := h.reserved_cons _
  passed n j hj := List.mem_cons_of_mem _ (h.passed n j hj)
  used n j hagain hmem := by
    rw [List.zip_append hlength, List.mem_append] at hmem
    rcases hmem with hmem | hmem
    · exact h.used n j hagain hmem
    · obtain ⟨rfl, _⟩ := Prod.mk.inj (List.mem_singleton.1 hmem)
      omega

/-- The next number of a name, which is the least that makes a name not taken. -/
theorem passed_of_lt (h : Searched all asked given taken next) {j : Nat}
    (hj : j < freeIndex name taken ((next.lookup name).getD 0)) : numbered name j ∈ taken := by
  by_cases hbelow : j < (next.lookup name).getD 0
  · exact h.passed name j hbelow
  · exact taken_of_lt_freeIndex (Nat.le_of_not_lt hbelow) hj

/-- Giving a name its next number moves the search for this name past that number. -/
theorem number (h : Searched all asked given taken next) (hlength : asked.length = given.length)
    {i : Nat} (hi : i = freeIndex name taken ((next.lookup name).getD 0)) :
    Searched all (asked ++ [name]) (given ++ [numbered name i]) (numbered name i :: taken)
      ((name, i + 1) :: next) where
  reserved := h.reserved_cons _
  passed n j hj := by
    by_cases hn : n = name
    · subst hn
      rw [List.lookup_cons_self, Option.getD_some] at hj
      rcases Nat.lt_succ_iff_lt_or_eq.1 hj with hj | rfl
      · exact List.mem_cons_of_mem _ (h.passed_of_lt (hi ▸ hj))
      · exact List.mem_cons_self
    · rw [List.lookup_cons, beq_eq_false_iff_ne.2 hn] at hj
      exact List.mem_cons_of_mem _ (h.passed n j hj)
  used n j hagain hmem := by
    rw [List.zip_append hlength, List.mem_append] at hmem
    have hbefore : (n, numbered n j) ∈ asked.zip given → j < (next.lookup n).getD 0 :=
      h.used n j hagain
    by_cases hn : n = name
    · subst hn
      rw [List.lookup_cons_self, Option.getD_some]
      have hle := le_freeIndex n taken ((next.lookup n).getD 0)
      rcases hmem with hmem | hmem
      · have := hbefore hmem
        omega
      · have hnew := (Prod.mk.inj (List.mem_singleton.1 hmem)).2
        have := numbered_injective hnew
        omega
    · rw [List.lookup_cons, beq_eq_false_iff_ne.2 hn]
      rcases hmem with hmem | hmem
      · exact hbefore hmem
      · exact absurd (Prod.mk.inj (List.mem_singleton.1 hmem)).1 hn

/-- The next number of a name makes a name that may be given. -/
theorem fits (h : Searched all asked given taken next) (name : Name)
    (hagain : 1 < all.count name) :
    Fits all asked given name
      (numbered name (freeIndex name taken ((next.lookup name).getD 0))) where
  once honce := absurd honce (by omega)
  again _ := by
    refine ⟨_, rfl, fun j hmem => ?_, fun j hj => h.reserved _ (h.passed_of_lt hj)⟩
    exact Nat.lt_of_lt_of_le (h.used name j hagain hmem) (le_freeIndex ..)

end Searched

/-- From wherever the search has come to, the remaining names are given one after another. -/
theorem assigned_assignNames {all rest : List Name} :
    ∀ {asked given taken : List Name} {next : List (Name × Nat)}, (∀ n ∈ rest, n ∈ all) →
      Assigned all asked given → Searched all asked given taken next →
      Assigned all (asked ++ rest) (given ++ assignNames all taken next rest) := by
  induction rest with
  | nil =>
    intro asked given taken next _ hassigned _
    rw [assignNames, List.append_nil, List.append_nil]
    exact hassigned
  | cons name rest ih =>
    intro asked given taken next hall hassigned hsearched
    have hrest : ∀ n ∈ rest, n ∈ all := fun n hn => hall n (List.mem_cons_of_mem _ hn)
    have hlength := hassigned.length_eq
    rw [assignNames]
    split
    · next honce =>
      have hfits : Fits all asked given name name :=
        ⟨fun _ => rfl, fun hagain => absurd hagain (by omega)⟩
      have := ih hrest (hassigned.snoc hfits) (hsearched.keep hlength honce)
      rwa [List.append_assoc, List.append_assoc] at this
    · next honce =>
      have hfits := hsearched.fits name (by omega)
      have := ih hrest (hassigned.snoc hfits) (hsearched.number hlength rfl)
      rwa [List.append_assoc, List.append_assoc] at this

/-- The names given out for those asked for are given one after another. -/
theorem assigned_distinctNames (names : List Name) :
    Assigned names names (distinctNames names) := by
  refine assigned_assignNames (fun _ hn => hn) .nil ⟨fun n hn => .inl ?_, ?_, ?_⟩
  · obtain ⟨hmem, hcount⟩ := List.mem_filter.1 hn
    have hpos := List.count_pos_iff.2 hmem
    have hle := of_decide_eq_true hcount
    omega
  · intro n j hj
    exact absurd hj (Nat.not_lt_zero j)
  · intro n j _ hmem
    exact absurd hmem List.not_mem_nil

end Build

/-! ## 3. Properties made since a model -/

open Build

/-- The properties made since a model, in the draft `made`, have got their names in the draft
    `named`, as `map` lists them. -/
structure Model.Named (before : Model) (made named : Draft) (map : PropertyMap) : Prop where
  /-- There is one entry for each property, in the order in which they were made. -/
  ids : map.ids =
    idsFrom before.properties.size (made.model.properties.size - before.properties.size)
  /-- These are the properties noted for the entity in hand. -/
  attached : made.attached.map Prod.snd = map.ids
  /-- They were made under the names noted with them. -/
  asked : ∀ name id, (name, id) ∈ made.attached →
    ∃ p, made.model.property id = .ok p ∧ p.name = name
  /-- No name is listed twice. -/
  distinct : (map.map Prod.fst).Nodup
  /-- For the names they were made under, names were given one after another. -/
  assigned : Assigned (made.attached.map Prod.fst) (made.attached.map Prod.fst)
    (map.map Prod.fst)
  /-- A listed property has the name that it is listed under, and is the same otherwise. -/
  stored : ∀ name id, (name, id) ∈ map →
    ∃ p, made.model.property id = .ok p ∧ named.model.property id = .ok { p with name := name }
  /-- Any other property is as it was. -/
  others : ∀ id, id ∉ map.ids → named.model.property id = made.model.property id
  /-- Nothing but properties has changed. -/
  kept : ∃ properties,
    named = { made with model := { made.model with properties := properties } }

/-- A listed entry, by its place: the name given there and the id counted from `q` on. -/
theorem Build.mem_zip_idsFrom {names : List Name} {q : Nat} {name : Name} {id : PropertyId} :
    (name, id) ∈ names.zip (idsFrom q names.length) ↔
      ∃ k, names[k]? = some name ∧ id = ⟨q + k⟩ := by
  rw [List.mem_iff_getElem?]
  refine exists_congr fun k => ?_
  rw [List.getElem?_zip_eq_some]
  refine and_congr_right fun hname => ?_
  have hlt : k < names.length := (List.getElem?_eq_some_iff.1 hname).1
  rw [getElem?_idsFrom hlt, Option.some.injEq, eq_comm]

/-- The properties of a model that come after others, place by place. -/
theorem Model.property_eq_of_append {m : Model} {pre ps : List Property}
    (h : m.properties.toList = pre ++ ps) {k : Nat} {p : Property} (hp : ps[k]? = some p) :
    m.property ⟨pre.length + k⟩ = .ok p := by
  rw [Model.property_eq_ok_iff, ← Array.getElem?_toList, h,
    List.getElem?_append_right (Nat.le_add_right ..), Nat.add_sub_cancel_left]
  exact hp

/-- Renaming properties in a row changes none that are not in the row. -/
theorem Build.getElem?_append_renamed {pre ps : List Property} {k : Nat} (names : List Name)
    (h : k < pre.length ∨ pre.length + ps.length ≤ k) :
    (pre ++ renamed ps names)[k]? = (pre ++ ps)[k]? := by
  rcases h with h | h
  · rw [List.getElem?_append_left h, List.getElem?_append_left h]
  · have hle : (renamed ps names).length ≤ ps.length := by
      rw [renamed, List.length_zipWith]
      exact Nat.min_le_left ..
    rw [List.getElem?_eq_none (by rw [List.length_append]; omega),
      List.getElem?_eq_none (by rw [List.length_append]; omega)]

/-- Names with ids in a row are paired with them. -/
theorem Build.tagged_eq_zip (q : Nat) (names : List Name) :
    Plan.tagged q names = names.zip (idsFrom q names.length) :=
  List.zip_of_prod (map_fst_tagged q names) (map_snd_tagged q names)

/-- Naming properties that were made in a row gives them names that fit. -/
theorem Build.ensures_nameProperties {before : Model} {made : Draft} {ps : List Property}
    {names : List Name}
    (hmade : made.model.properties.toList = before.properties.toList ++ ps)
    (hnames : ps.map Property.name = names)
    (hattached : made.attached = Plan.tagged before.properties.size names) :
    Ensures (nameProperties made.attached) made (fun _ => False) fun map named =>
      before.Named made named map := by
  have hlength : (distinctNames names).length = names.length := length_distinctNames names
  have hps : ps.length = (distinctNames names).length := by
    rw [hlength, ← hnames, List.length_map]
  have hrename := ensures_rename (E := fun _ => False) hmade Array.length_toList hps
  rw [nameProperties, hattached, map_fst_tagged, map_snd_tagged, ← hlength, ensures_bind]
  refine hrename.mono (fun _ h => h) ?_
  rintro _ d ⟨properties, hproperties, rfl⟩
  rw [ensures_pure]
  have hasked : made.attached.map Prod.fst = names := by rw [hattached, map_fst_tagged]
  have hfits : Assigned names names (distinctNames names) := assigned_distinctNames names
  have hdistinct : (distinctNames names).Nodup := nodup_distinctNames names
  generalize distinctNames names = given at *
  have hsize : before.properties.toList.length = before.properties.size :=
    Array.length_toList
  have hids : PropertyMap.ids (given.zip (idsFrom before.properties.size given.length)) =
      idsFrom before.properties.size given.length :=
    List.map_snd_zip (Nat.le_of_eq (length_idsFrom ..))
  have hkeys : (given.zip (idsFrom before.properties.size given.length)).map Prod.fst =
      given :=
    List.map_fst_zip (Nat.le_of_eq (length_idsFrom ..).symm)
  refine {
    ids := ?_, attached := ?_, asked := ?_, distinct := ?_, assigned := ?_, stored := ?_,
    others := ?_, kept := ⟨properties, rfl⟩ }
  · have hgrown : made.model.properties.size = before.properties.size + ps.length := by
      rw [← Array.length_toList, hmade, List.length_append, hsize]
    rw [hids, hgrown, Nat.add_sub_cancel_left, hps]
  · rw [hids, hattached, map_snd_tagged, hlength]
  · intro name id hmem
    rw [hattached, tagged_eq_zip, mem_zip_idsFrom] at hmem
    obtain ⟨k, hname, rfl⟩ := hmem
    rw [← hnames, List.getElem?_map, Option.map_eq_some_iff] at hname
    obtain ⟨p, hp, rfl⟩ := hname
    exact ⟨p, hsize ▸ Model.property_eq_of_append hmade hp, rfl⟩
  · rwa [hkeys]
  · rwa [hkeys, hasked]
  · intro name id hmem
    obtain ⟨k, hname, rfl⟩ := mem_zip_idsFrom.1 hmem
    have hlt : k < ps.length := hps ▸ (List.getElem?_eq_some_iff.1 hname).1
    have hp : ps[k]? = some ps[k] := List.getElem?_eq_getElem hlt
    have hrenamed : (renamed ps given)[k]? = some { ps[k] with name := name } := by
      rw [renamed, List.getElem?_zipWith, hp, hname]
    exact ⟨ps[k], hsize ▸ Model.property_eq_of_append hmade hp,
      hsize ▸ Model.property_eq_of_append (m := { made.model with properties := properties })
        hproperties hrenamed⟩
  · intro id hid
    rw [hids, mem_idsFrom] at hid
    have hout : id.index < before.properties.toList.length ∨
        before.properties.toList.length + ps.length ≤ id.index := by
      by_contra hin
      refine hid ⟨id.index - before.properties.size, by omega, ?_⟩
      rw [Nat.add_sub_cancel' (by omega)]
    have hsame := getElem?_append_renamed given hout
    rw [← hproperties, ← hmade, Array.getElem?_toList, Array.getElem?_toList] at hsame
    rw [Model.property, Model.property, hsame]

/-! ## 4. Compiling an expression -/

/-- However many properties compiling an expression makes, and whatever names they are made under,
    they all get names: they are listed once each in the order in which they were made, and stored
    under the name they are listed under; no two names are the same, a name asked for once is kept,
    and a name asked for more often gets each time the least number, above those it got before,
    that makes a name no one asked for alone and no one got. -/
theorem properties_named [Unicode.Xid] {entity : Name} {place : Place} {e : Expr}
    {before made : Draft} {action : ActionId}
    (h : compile entity place e { before with attached := [] } = .ok action made) :
    ∃ map named, nameProperties made.attached made = .ok map named ∧
      before.model.Named made named map := by
  obtain ⟨-, hgrown, -⟩ := (ensures_compile e place { before with attached := [] }).of_ok h
  have hnamed := ensures_nameProperties hgrown.properties
    (Plan.map_name_props entity before.model.actions.size (e.plan entity place)) hgrown.attached
  cases hrun : nameProperties made.attached made with
  | ok map named => exact ⟨map, named, rfl, hnamed.of_ok hrun⟩
  | error stop named =>
    rw [Ensures, hrun] at hnamed
    exact hnamed.elim

namespace Suffixes

/-- A rule of four letters, three of which ask for a name, and one for the name with a number. -/
def body : Expr :=
  .sequence (.sequence (.literal (some "id") "a") (.literal (some "id") "b"))
    (.sequence (.literal (some "id0") "c") (.literal (some "id") "d"))

/-- The draft that the rule is compiled in. -/
def before : Draft where
  model := ∅

/-- The draft with the properties as they are made. -/
def made : Draft where
  model := {
    properties := #[
      { name := "id", entity := "letters", source := ⟨0⟩ },
      { name := "id", entity := "letters", source := ⟨1⟩ },
      { name := "id0", entity := "letters", source := ⟨2⟩ },
      { name := "id", entity := "letters", source := ⟨3⟩ }]
    actions := #[
      { kind := .literal "a", property := some ⟨0⟩, parent := some ⟨4⟩ },
      { kind := .literal "b", property := some ⟨1⟩, parent := some ⟨4⟩ },
      { kind := .literal "c", property := some ⟨2⟩, parent := some ⟨4⟩ },
      { kind := .literal "d", property := some ⟨3⟩, parent := some ⟨4⟩ },
      { kind := .all [⟨0⟩, ⟨1⟩, ⟨2⟩, ⟨3⟩] }] }
  events := #[.propertyMade "letters" "id" ⟨0⟩, .propertyMade "letters" "id" ⟨1⟩,
    .propertyMade "letters" "id0" ⟨2⟩, .propertyMade "letters" "id" ⟨3⟩]
  attached := [("id", ⟨0⟩), ("id", ⟨1⟩), ("id0", ⟨2⟩), ("id", ⟨3⟩)]

/-- The draft with the properties under the names given to them. -/
def named : Draft where
  model := { made.model with
    properties := #[
      { name := "id1", entity := "letters", source := ⟨0⟩ },
      { name := "id2", entity := "letters", source := ⟨1⟩ },
      { name := "id0", entity := "letters", source := ⟨2⟩ },
      { name := "id3", entity := "letters", source := ⟨3⟩ }] }
  events := made.events
  attached := made.attached

/-- The properties as they are listed in the end. -/
def map : PropertyMap :=
  [("id1", ⟨0⟩), ("id2", ⟨1⟩), ("id0", ⟨2⟩), ("id3", ⟨3⟩)]

theorem compile_eq :
    compile "letters" .top body { before with attached := [] } = .ok ⟨4⟩ made := by
  cbv

theorem nameProperties_eq : nameProperties made.attached made = .ok map named := by
  cbv

end Suffixes

/-- The number that one letter asks for is passed over for the others. -/
theorem properties_named_suffixes :
    compile "letters" .top Suffixes.body { Suffixes.before with attached := [] } =
      .ok ⟨4⟩ Suffixes.made ∧
    nameProperties Suffixes.made.attached Suffixes.made = .ok Suffixes.map Suffixes.named ∧
    Suffixes.before.model.Named Suffixes.made Suffixes.named Suffixes.map := by
  obtain ⟨map, named, hnames, hnamed⟩ := properties_named Suffixes.compile_eq
  obtain ⟨rfl, rfl⟩ : Suffixes.map = map ∧ Suffixes.named = named := by
    rw [Suffixes.nameProperties_eq] at hnames
    injection hnames with hmap hdraft
    exact ⟨hmap, hdraft⟩
  exact ⟨Suffixes.compile_eq, Suffixes.nameProperties_eq, hnamed⟩

end Ebnf
