import Ebnf.Proofs.Records

/-!
# What becomes of the values that are read

The node of an entity is put together from the values that its match has recorded. A field that
holds a list gets all its values. A field that holds a single value gets one at most, unless it
stands for the branches of a choice some of which repeat: of the values of such a branch the last
one is kept.

* `Program.collect`: the values that the match of an entity records;
* `Node.Keeps`: what a node keeps of them;
* `values_kept`: none of them is lost, and where that is not so.
-/

namespace Ebnf

open Build (alternativeName getElem?_idsFrom mem_idsFrom)

/-! ## 1. Nodes -/

/-- What a field made from a property is. -/
theorem Field.of_ofModel {m : Model} {id : PropertyId} {f : Field}
    (h : Field.ofModel m id = .ok f) :
    ∃ p x, m.property id = .ok p ∧ m.action p.source = .ok x ∧ f.name = p.name ∧
      m.isPlural id = .ok f.isPlural ∧ f.isWitness = x.isWitness := by
  rw [Field.ofModel] at h
  cases hp : m.property id with
  | error fault => rw [hp] at h; contradiction
  | ok p =>
    cases hplural : m.isPlural id with
    | error fault => rw [hp, hplural] at h; contradiction
    | ok plural =>
      cases hx : m.action p.source with
      | error fault => simp [hp, hplural, hx, bind, Except.bind] at h
      | ok x =>
        simp only [hp, hplural, hx, bind, Except.bind, pure, Except.pure, Except.ok.injEq] at h
        subst h
        exact ⟨p, x, rfl, hx, rfl, rfl, rfl⟩

/-- Filling in fields changes no other. -/
theorem get?_fillFields_of_notMem {out : Assignments} {name : Name} (fields : List Field) :
    ∀ (place : Nat) (n : Node), name ∉ fields.map Field.name →
      (fillFields out place n fields).get? name = n.get? name := by
  induction fields with
  | nil => exact fun _ _ _ => rfl
  | cons f fields ih =>
    intro place n hname
    rw [List.map_cons, List.mem_cons, not_or] at hname
    rw [fillFields, ih _ _ hname.2]
    cases f.value? place out with
    | none => rfl
    | some v => exact Ordered.get?_set_of_ne n.fields v hname.1

/-- A field that was filled in has its value. -/
theorem get?_fillFields {out : Assignments} {f : Field} (fields : List Field) :
    ∀ (place k : Nat) (n : Node), (fields.map Field.name).Nodup →
      (∀ f ∈ fields, n.get? f.name = none) → fields[k]? = some f →
      (fillFields out place n fields).get? f.name = f.value? (place + k) out := by
  induction fields with
  | nil => exact fun _ _ _ _ _ hk => absurd hk (by simp)
  | cons first fields ih =>
    intro place k n hnodup hfresh hk
    rw [List.map_cons, List.nodup_cons] at hnodup
    rw [fillFields]
    cases k with
    | zero =>
      obtain rfl := Option.some.inj hk
      rw [get?_fillFields_of_notMem fields _ _ hnodup.1, Nat.add_zero]
      cases first.value? place out with
      | none => exact hfresh first List.mem_cons_self
      | some v => exact Ordered.get?_set_self n.fields first.name v
    | succ k =>
      rw [ih (place + 1) k _ hnodup.2 ?_ hk, Nat.add_assoc, Nat.add_comm 1 k]
      intro f' hf'
      cases first.value? place out with
      | none => exact hfresh f' (List.mem_cons_of_mem _ hf')
      | some v =>
        refine (Ordered.get?_set_of_ne n.fields v ?_).trans (hfresh f' (List.mem_cons_of_mem _ hf'))
        intro heq
        exact hnodup.1 (heq ▸ List.mem_map_of_mem hf')

/-- A field holds all values that go to it if it holds a list, and else the last one. -/
theorem Field.value?_eq (f : Field) (place : Nat) (out : Assignments) :
    (f.isPlural = true → f.value? place out = some (.list (valuesAt place out))) ∧
    (f.isPlural = false → ∀ v, (valuesAt place out).getLast? = some v →
      f.value? place out = some v) := by
  rw [Field.value?]
  refine ⟨fun h => by simp only [h, if_true], fun h v hv => ?_⟩
  simp only [h, hv, Bool.false_eq_true, if_false]

theorem length_valuesAt (place : Nat) (out : Assignments) :
    (valuesAt place out).length = out.countP (·.1 = .field place) := by
  rw [valuesAt, List.length_map, List.countP_eq_length_filter]

/-! ## 2. Entities -/

namespace Program

/-- The values that the surviving match of an entity records. -/
def collect (p : Program) (src : Source) : Nat → Name → Run (Option Assignments)
  | 0, name => do
    Run.tell (.tooDeep name)
    modify fun s => { s with overflow := s.overflow.or (some name) }
    return none
  | depth + 1, name => do
    let some procedure := p.procedure? name | return none
    let some body := procedure.body | return none
    Run.tell (.entityTried name (← Run.offset))
    let op ← Run.check body
    op.run src (p.inner src depth)

/-- The node of an entity is put together from the values that its match records. -/
theorem entity_eq_collect (p : Program) (src : Source) (depth : Nat) (name : Name) :
    p.entity src depth name = do
      let some out ← p.collect src depth name | return none
      let some procedure := p.procedure? name | return none
      return some (assemble name (← Run.check procedure.fields) out) := by
  cases depth with
  | zero => rfl
  | succ depth =>
    rw [Program.entity, collect]
    cases p.procedure? name with
    | none => simp only [pure_bind]
    | some procedure =>
      cases hbody : procedure.body with
      | none => simp only [hbody, pure_bind]
      | some body =>
        simp only [hbody, bind_assoc]
        rfl

end Program

/-- A property stands for branches of a choice some of which repeat. -/
def Model.Overfilled (m : Model) (id : PropertyId) : Prop :=
  ∃ p sub, m.property id = .ok p ∧ sub ∈ p.subsumed ∧ m.isPlural sub = .ok true

namespace Site

variable {m : Model} {e : Entity} {s : Site} {out : Assignments} {P : Name → Value → Prop}

/-- The current properties have names that differ. -/
theorem Hosts.nodup_keys (h : s.Hosts m e) : (e.properties.map Prod.fst).Nodup := by
  rw [h.current]
  cases hproxy : s.proxy with
  | none =>
    rw [current_plain hproxy, List.map_fst_zip (Nat.le_of_eq (by rw [length_names, length_ids]))]
    exact s.nodup_names
  | some entry => rw [current_proxy hproxy]; exact List.nodup_singleton _

/-- Whether a property of a leaf can be filled more than once. -/
theorem Hosts.isPlural_slot (h : s.Hosts m e) {k : Nat} {f : Plan.Filler}
    (hk : (s.plan.fillers false)[k]? = some f) :
    m.isPlural ⟨s.property + k⟩ = .ok f.plural := by
  obtain ⟨i, x, hfills⟩ := h.slot hk
  obtain ⟨name, hproperty⟩ := hfills.property
  obtain ⟨line, hline, hany⟩ := hfills.line
  simp only [Model.isPlural, bind, Except.bind, Model.property_eq_ok_iff.2 hproperty, hline, pure,
    Except.pure, hany]

/-- The place of a property that was made for a leaf. -/
theorem Hosts.place_plain (h : s.Hosts m e) (hproxy : s.proxy = none) {place : Nat} {key : Name}
    {id : PropertyId} (hplace : e.properties[place]? = some (key, id)) :
    place < s.plan.width ∧ id = ⟨s.property + place⟩ := by
  rw [h.current, current_plain hproxy] at hplace
  obtain ⟨hname, hid⟩ := List.getElem?_zip_eq_some.1 hplace
  have hlt : place < s.plan.width := by
    rw [← s.length_names]
    exact (List.getElem?_eq_some_iff.1 hname).1
  rw [ids, getElem?_idsFrom hlt] at hid
  exact ⟨hlt, (Option.some.inj hid).symm⟩

/-- A proxy is the only property. -/
theorem Hosts.place_proxy (h : s.Hosts m e) {choice : ActionId} {proxy : PropertyId}
    (hproxy : s.proxy = some (choice, proxy)) {place : Nat} {key : Name} {id : PropertyId}
    (hplace : e.properties[place]? = some (key, id)) : place = 0 ∧ id = proxy := by
  rw [h.current, current_proxy hproxy] at hplace
  cases place with
  | zero => exact ⟨rfl, (Prod.mk.inj (Option.some.inj hplace)).2.symm⟩
  | succ place => contradiction

/-- Every leaf fills a current property. -/
theorem Hosts.exists_place (h : s.Hosts m e) {k : Nat} (hk : k < s.plan.width) :
    ∃ place key id, s.dest (s.property + k) = .field place ∧
      e.properties[place]? = some (key, id) := by
  rw [h.current]
  cases hproxy : s.proxy with
  | none =>
    have hname : k < s.names.length := by rwa [length_names]
    refine ⟨k, s.names[k], ⟨s.property + k⟩, by simp [dest, hproxy], ?_⟩
    rw [current_plain hproxy]
    exact List.getElem?_zip_eq_some.2 ⟨List.getElem?_eq_getElem hname, getElem?_idsFrom hk⟩
  | some entry =>
    obtain ⟨choice, proxy⟩ := entry
    refine ⟨0, alternativeName, proxy, by simp [dest, hproxy], ?_⟩
    rw [current_proxy hproxy]
    rfl

/-- Every value goes to a current property. -/
theorem Hosts.current_of_recorded (h : s.Hosts m e)
    (hout : Recorded P s.dest s.property s.plan.symbols out) {entry : Destination × Value}
    (hentry : entry ∈ out) :
    ∃ place key id, entry.1 = .field place ∧ e.properties[place]? = some (key, id) := by
  obtain ⟨k, symbol, hsymbol, heq, _⟩ := hout entry hentry
  rw [heq]
  refine h.exists_place ?_
  rw [← s.plan.length_symbols]
  exact (List.getElem?_eq_some_iff.1 hsymbol).1

/-- A property that does not repeat, nor stands for anything that does, gets one value at most. -/
theorem Hosts.single (h : s.Hosts m e) {place : Nat} {key : Name} {id : PropertyId}
    (hplace : e.properties[place]? = some (key, id)) (hplural : m.isPlural id = .ok false)
    (hfill : ¬ m.Overfilled id) :
    Plan.Single s.dest (· = .field place) s.property (s.plan.fillers false) ∧
      s.plan.most ((· = .field place) ∘ s.dest) s.property ≤ 1 := by
  cases hproxy : s.proxy with
  | none =>
    obtain ⟨hlt, rfl⟩ := h.place_plain hproxy hplace
    have hdest : ∀ j, s.property ≤ j → decide (s.dest j = .field place) = true →
        j = s.property + place := by
      intro j hj hd
      have hfield := of_decide_eq_true hd
      simp only [dest, hproxy, Destination.field.injEq] at hfield
      omega
    refine ⟨fun k f hk hd => ?_, (Plan.most_single hdest s.plan s.property (Nat.le_refl _)).1⟩
    have heq := hdest _ (Nat.le_add_right ..) hd
    obtain rfl : k = place := Nat.add_left_cancel heq
    rw [h.isPlural_slot hk] at hplural
    exact Except.ok.inj hplural
  | some entry =>
    obtain ⟨choice, proxy⟩ := entry
    obtain ⟨rfl, rfl⟩ := h.place_proxy hproxy hplace
    have hchooses := h.chooses choice id hproxy
    refine ⟨fun k f hk _ => ?_, ?_⟩
    · cases hf : f.plural with
      | false => rfl
      | true =>
        have hk' : k < s.plan.width := by
          rw [← Plan.length_fillers false]
          exact (List.getElem?_eq_some_iff.1 hk).1
        refine absurd ⟨_, ⟨s.property + k⟩, Model.property_eq_ok_iff.2 hchooses.property, ?_,
          ?_⟩ hfill
        · exact mem_idsFrom.2 ⟨k, hk', rfl⟩
        · rw [h.isPlural_slot hk, hf]
    · obtain ⟨y, hy, hchoice, _⟩ := hchooses.action
      have htop : Plan.Around m s.fin false none := rfl
      refine h.stands.most_le_one ⟨y, hy, hchoice⟩ (Nat.le_refl _) htop fun k hk => ?_
      obtain ⟨p, x, hp, hx, hparent, _⟩ := hchooses.branches k hk
      exact ⟨p, x, hp, hx, hparent⟩

end Site

/-- What the node of an entity keeps of the values that were recorded for it. Each goes to a current
    property. A property that repeats has all its values in a list. Any other has the last one, and
    there is no other one, unless the property stands for branches some of which repeat. -/
structure Node.Keeps (n : Node) (m : Model) (e : Entity) (out : Assignments) : Prop where
  current : ∀ entry ∈ out, ∃ place key id,
    entry.1 = .field place ∧ e.properties[place]? = some (key, id)
  fields : ∀ (place : Nat) key id, e.properties[place]? = some (key, id) →
    (m.isPlural id = .ok true ∧ n.get? key = some (.list (valuesAt place out))) ∨
    (m.isPlural id = .ok false ∧
      (∀ v, (valuesAt place out).getLast? = some v → n.get? key = some v) ∧
      ((valuesAt place out).length ≤ 1 ∨ m.Overfilled id))

variable {g : Grammar} {engine : Engine} {m : Model} {config : ReadConfig} {p : Program}
  {patterns : Patterns}

/-- The field that a property makes. -/
theorem Procedure.Of.field [Unicode.Xid] {proc : Procedure} {e : Entity} {s : Site} {r : Rule}
    {fields : List Field} (h : proc.Of g m patterns e s r fields) {place : Nat} {key : Name}
    {id : PropertyId} (hplace : e.properties[place]? = some (key, id)) :
    ∃ f, fields[place]? = some f ∧ f.name = key ∧ Field.ofModel m id = .ok f := by
  have hid : e.properties.ids[place]? = some id := by
    rw [PropertyMap.ids, List.getElem?_map, hplace]
    rfl
  obtain ⟨hlt, hget⟩ := List.getElem?_eq_some_iff.1 hid
  obtain ⟨hlength, hall⟩ := List.forall₂_iff_get.1 h.fields
  have hlt' : place < fields.length := hlength ▸ hlt
  have hfield := hall place hlt hlt'
  simp only [List.get_eq_getElem, hget] at hfield
  obtain ⟨p, _, hp, _, hname, _⟩ := Field.of_ofModel hfield
  obtain ⟨p', x, hlinked, hkey, _⟩ := h.hosts.lists (List.mem_of_getElem? hplace)
  obtain rfl := Except.ok.inj (hp.symm.trans (Model.property_eq_ok_iff.2 hlinked.property))
  exact ⟨_, List.getElem?_eq_getElem hlt', hname.trans hkey, hfield⟩

/-- The fields of an entity have the names of its properties. -/
theorem Procedure.Of.map_name [Unicode.Xid] {proc : Procedure} {e : Entity} {s : Site} {r : Rule}
    {fields : List Field} (h : proc.Of g m patterns e s r fields) :
    fields.map Field.name = e.properties.map Prod.fst := by
  have hlength : e.properties.ids.length = fields.length := h.fields.length_eq
  rw [PropertyMap.ids, List.length_map] at hlength
  refine List.ext_getElem? fun place => ?_
  rw [List.getElem?_map, List.getElem?_map]
  cases hplace : e.properties[place]? with
  | none =>
    rw [List.getElem?_eq_none (hlength ▸ List.getElem?_eq_none_iff.1 hplace)]
    rfl
  | some entry =>
    obtain ⟨key, id⟩ := entry
    obtain ⟨f, hf, hname, _⟩ := h.field hplace
    rw [hf, Option.map_some, Option.map_some, hname]

/-- So the names of the fields differ. -/
theorem Procedure.Of.nodup_names [Unicode.Xid] {proc : Procedure} {e : Entity} {s : Site} {r : Rule}
    {fields : List Field} (h : proc.Of g m patterns e s r fields) :
    (fields.map Field.name).Nodup := by
  rw [h.map_name]
  exact h.hosts.nodup_keys

/-- A node holds in each field what was recorded for it. -/
theorem Procedure.Of.get?_assemble [Unicode.Xid] {proc : Procedure} {e : Entity} {s : Site}
    {r : Rule} {fields : List Field} (h : proc.Of g m patterns e s r fields) {place : Nat}
    {f : Field} (hf : fields[place]? = some f) (name : Name) (out : Assignments) :
    (assemble name fields out).get? f.name = f.value? place out := by
  rw [assemble, get?_fillFields fields 0 place _ h.nodup_names (fun _ _ => rfl) hf, Nat.zero_add]

/-- Nothing is said of what reading an entity gives. -/
theorem Plan.given_any (inner : Name → Run (Option (Option Value))) :
    Given inner fun _ _ => True :=
  fun _ _ _ _ _ _ _ => trivial

/-- The node of an entity keeps what its match recorded. -/
theorem Procedure.Of.keeps [Unicode.Xid] {proc : Procedure} {e : Entity} {s : Site} {r : Rule}
    {fields : List Field} (h : proc.Of g m patterns e s r fields) {src : Source}
    {inner : Name → Run (Option (Option Value))} {u t : RunState} {out : Assignments}
    (hrun : (s.plan.op patterns s.dest s.property).run src inner u = .ok (some out) t)
    (name : Name) : (assemble name fields out).Keeps m e out where
  current := by
    intro entry hentry
    have hout := (Plan.tally_run (D := fun _ => false) (Plan.given_any inner) s.plan s.property
      (fun _ _ _ hD => by contradiction) u out t hrun).1
    exact h.hosts.current_of_recorded hout hentry
  fields := by
    intro place key id hplace
    obtain ⟨f, hf, rfl, hfield⟩ := h.field hplace
    obtain ⟨_, _, _, _, _, hplural, _⟩ := Field.of_ofModel hfield
    have hget := h.get?_assemble hf name out
    obtain ⟨hlist, hlast⟩ := f.value?_eq place out
    cases hvalue : f.isPlural with
    | true => exact .inl ⟨hvalue ▸ hplural, hget.trans (hlist hvalue)⟩
    | false =>
      rw [hvalue] at hplural
      refine .inr ⟨hplural, fun v hv => hget.trans (hlast hvalue v hv), ?_⟩
      by_cases hfill : m.Overfilled id
      · exact .inr hfill
      · obtain ⟨hsingle, hmost⟩ := h.hosts.single hplace hplural hfill
        refine .inl ?_
        rw [length_valuesAt]
        exact Nat.le_trans (Plan.tally_run (Plan.given_any inner) s.plan s.property hsingle u out t
          hrun).2 hmost

/-- What a match records for an entity, its procedure has done. -/
theorem Program.Made.of_collect [Unicode.Xid] (hmade : p.Made engine m config patterns)
    (hreached : Build.Reached g m True) {site : Name → Site} (hsited : m.Sited site m.names)
    {src : Source} {depth : Nat} {name : Name} {s t : RunState} {out : Assignments}
    (hrun : p.collect src depth name s = .ok (some out) t) :
    ∃ below e proc r fields u, depth = below + 1 ∧ m.entity? name = some e ∧
      p.procedure? name = some proc ∧ proc.Of g m patterns e (site e.name) r fields ∧
      ((site e.name).plan.op patterns (site e.name).dest (site e.name).property).run src
        (p.inner src below) u = .ok (some out) t := by
  cases depth with
  | zero => cases hrun
  | succ below =>
    cases he : m.entity? name with
    | none =>
      rw [Program.collect, hmade.procedure?_eq, he] at hrun
      cases hrun
    | some e =>
      obtain ⟨proc, r, fields, hproc, hof⟩ := hmade.procedure_some hreached hsited he
      rw [Program.collect, hproc] at hrun
      simp only [hof.body] at hrun
      obtain ⟨_, _, _, hrun⟩ := bind_eq_ok.1 hrun
      obtain ⟨_, _, _, hrun⟩ := bind_eq_ok.1 hrun
      obtain ⟨op, u, hop, hrun⟩ := bind_eq_ok.1 hrun
      cases hop
      exact ⟨below, e, proc, r, fields, _, rfl, rfl, hproc, hof, hrun⟩

/-- No value that is read is lost, but for those of a repeating branch of a choice that one property
    stands for: whatever the surviving match of an entity records, at any place and depth, its node
    keeps. -/
theorem values_kept [Unicode.Xid] {n : Nat} (hmodel : Model.ofGrammar g = .ok m)
    (hprogram : Program.ofModel engine m config = .ok (p, n)) (src : Source) (depth : Nat)
    (name : Name) {s t : RunState} {out : Assignments}
    (hrun : p.collect src depth name s = .ok (some out) t) :
    ∃ e node, m.entity? name = some e ∧ p.entity src depth name s = .ok (some node) t ∧
      node.Keeps m e out := by
  have hreached := (Build.reached_ofGrammar hmodel).1
  obtain ⟨patterns, hmade⟩ := Program.made_of_ofModel hprogram
  obtain ⟨site, hsited⟩ := hreached.bodies trivial
  obtain ⟨_, e, proc, r, fields, u, _, he, hproc, hof, hop⟩ := hmade.of_collect hreached hsited hrun
  refine ⟨e, assemble name fields out, he, ?_, hof.keeps hop name⟩
  rw [p.entity_eq_collect]
  refine bind_eq_ok.2 ⟨_, t, hrun, ?_⟩
  simp only [hproc, hof.fields_eq]
  rfl

/-- Both parts of a list of two are kept. -/
theorem values_kept_sample :
    Model.ofGrammar Sample.grammar = .ok Sample.model ∧
    Program.ofModel Sample.engine Sample.model Sample.config = .ok (Sample.program, 0) ∧
    ∃ (out : Assignments) (t : RunState) (node : Node),
      Sample.program.collect (Sample.config.source Sample.engine "acd") 257 "list" {} =
        .ok (some out) t ∧
      Sample.program.entity (Sample.config.source Sample.engine "acd") 257 "list" {} =
        .ok (some node) t ∧
      (valuesAt 0 out).length = 2 ∧ node.get? "alternative" = some (.list (valuesAt 0 out)) := by
  refine ⟨Sample.ofGrammar_eq, Sample.ofModel_eq, ?_⟩
  have hfound : (outcome (Sample.program.collect (Sample.config.source Sample.engine "acd") 257
      "list" {})).map (Option.map fun out => (valuesAt 0 out).length) = .ok (some 2) := by
    decide +kernel
  cases hrun : Sample.program.collect (Sample.config.source Sample.engine "acd") 257 "list" {} with
  | error fault t =>
    rw [hrun] at hfound
    contradiction
  | ok found t =>
    rw [hrun] at hfound
    obtain ⟨out, rfl, hlength⟩ := Option.map_eq_some_iff.1 (Except.ok.inj hfound)
    obtain ⟨e, node, he, hentity, hkeeps⟩ :=
      values_kept Sample.ofGrammar_eq Sample.ofModel_eq _ 257 "list" hrun
    obtain rfl := Option.some.inj he
    refine ⟨out, t, node, rfl, hentity, hlength, ?_⟩
    have hplural : Sample.model.isPlural ⟨3⟩ = .ok true := by cbv
    rcases hkeeps.fields 0 "alternative" ⟨3⟩ rfl with ⟨_, hlist⟩ | ⟨hsingle, _⟩
    · exact hlist
    · rw [hplural] at hsingle
      contradiction

end Ebnf
