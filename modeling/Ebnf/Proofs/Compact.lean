import Ebnf.Proofs.Identifiers
import Ebnf.Proofs.LeadingSpace
import Ebnf.Proofs.Quoting
import Ebnf.Proofs.Shape

/-!
# The compact form of what was read

The compact form does not tell a flag from a node without fields that is named like one. But within
a model it is known which fields hold flags, and names are identifiers. So from the name of a node
and of its field it is known which kind of value comes next, and the text is read in one way only.

* `Value.Known`: a value has flags just where they are known to be, and identifiers for names;
* `Value.render_eq`: the text of such a value tells where it ends and what it is;
* `Value.Known.of_each`, `Program.Made.known_of_read`: instances of a model are such values;
* `compact_text_faithful`: instances with the same text are the same.
-/

namespace Ebnf

/-! ## 1. Words and what follows them -/

namespace Text

variable [Unicode.Xid]

/-- A character that is known to be no part of an identifier, whatever the version. -/
def isMark (c : Char) : Bool :=
  c.toNat < 128 && !c.isAlphanum && c != '_'

theorem isXidContinue_eq_false (hxid : Unicode.Xid.Ascii) {c : Char} (h : isMark c = true) :
    Unicode.isXidContinue c = false := by
  rw [isMark, Bool.and_eq_true, Bool.and_eq_true, decide_eq_true_eq, Bool.not_eq_true',
    bne_iff_ne] at h
  obtain ⟨⟨hlt, halphanum⟩, hline⟩ := h
  refine Bool.eq_false_iff.2 fun hcontinue => ?_
  rcases hxid.only c hlt hcontinue with hc | hc
  · exact absurd hc (Bool.eq_false_iff.1 halphanum)
  · exact hline hc

/-- The text does not go on with a character that may continue an identifier. -/
def Parted (r : List Char) : Prop :=
  ∀ c ∈ r.head?, Unicode.isXidContinue c = false

theorem Parted.cons (hxid : Unicode.Xid.Ascii) {c : Char} (h : isMark c = true) (r : List Char) :
    Parted (c :: r) := by
  intro d hd
  rw [← Option.some.inj hd]
  exact isXidContinue_eq_false hxid h

/-- A word that does not go on tells where it ends. -/
theorem word_eq {cs ds r s : List Char} (hcs : isWord cs = true) (hds : isWord ds = true)
    (hr : Parted r) (hs : Parted s) (h : cs ++ r = ds ++ s) : cs = ds ∧ r = s := by
  have hstop : ∀ {r : List Char}, Parted r → r.takeWhile Unicode.isXidContinue = [] := by
    intro r hr
    cases r with
    | nil => rfl
    | cons c r => rw [List.takeWhile_cons_of_neg (by rw [hr c rfl]; exact Bool.false_ne_true)]
  have hsame := congrArg (List.takeWhile Unicode.isXidContinue) h
  rw [List.takeWhile_append_of_pos (isWord_iff.1 hcs), List.takeWhile_append_of_pos
    (isWord_iff.1 hds), hstop hr, hstop hs, List.append_nil, List.append_nil] at hsame
  exact ⟨hsame, List.append_cancel_left (hsame ▸ h)⟩

/-- What may follow a value in a compact form: the end, or a mark that separates values or closes
    them. A blank may, but not one with the brace that opens the fields of a node. -/
structure Ends (r : List Char) : Prop where
  parted : Parted r
  closed : ∀ t, r ≠ ' ' :: '\x7b' :: t

theorem Ends.nil : Ends [] :=
  ⟨nofun, nofun⟩

theorem Ends.comma (hxid : Unicode.Xid.Ascii) (r : List Char) : Ends (',' :: r) :=
  ⟨.cons hxid (by decide) r, nofun⟩

theorem Ends.bracket (hxid : Unicode.Xid.Ascii) (r : List Char) : Ends (']' :: r) :=
  ⟨.cons hxid (by decide) r, nofun⟩

theorem Ends.brace (hxid : Unicode.Xid.Ascii) (r : List Char) : Ends (' ' :: '\x7d' :: r) := by
  refine ⟨.cons hxid (by decide) _, fun t h => ?_⟩
  simp at h

theorem isWord_of_isIdentifier (hxid : Unicode.Xid.Standard) {name : String}
    (h : isIdentifier name = true) : isWord name.toList = true :=
  isWord_of_isIdentifierChars hxid h

end Text

open Text (isIdentifier isWord Parted Ends)

namespace Value

/-! ## 2. The parts of a text -/

/-- The fields of a node, from the first one on. -/
def fieldChars : List (Name × Value) → List Char
  | [] => []
  | (key, v) :: fields =>
    key.toList ++ ':' :: ' ' :: (v.render.toList ++ (renderFields fields).toList)

/-- The items of a list, from the first one on. -/
def itemChars : List Value → List Char
  | [] => []
  | v :: items => v.render.toList ++ (renderItems items).toList

/-- What is written of a node after its name. -/
def bodyChars : List (Name × Value) → List Char
  | [] => []
  | field :: fields => ' ' :: '\x7b' :: ' ' :: (fieldChars (field :: fields) ++ [' ', '\x7d'])

theorem toList_renderFields_cons (field : Name × Value) (fields : List (Name × Value)) :
    (renderFields (field :: fields)).toList = ',' :: ' ' :: fieldChars (field :: fields) := by
  obtain ⟨key, v⟩ := field
  rw [renderFields, fieldChars]
  simp

theorem toList_renderItems_cons (v : Value) (items : List Value) :
    (renderItems (v :: items)).toList = ',' :: ' ' :: itemChars (v :: items) := by
  rw [renderItems, itemChars]
  simp

theorem toList_render_node (x : Name) (fields : List (Name × Value)) :
    (node x fields).render.toList = x.toList ++ bodyChars fields := by
  cases fields with
  | nil => rw [render, bodyChars, List.append_nil]
  | cons field fields =>
    obtain ⟨key, v⟩ := field
    rw [bodyChars, fieldChars, render]
    simp

theorem toList_render_list (items : List Value) :
    (list items).render.toList = '[' :: (itemChars items ++ [']']) := by
  cases items with
  | nil => rw [render]; rfl
  | cons v items =>
    rw [itemChars, render]
    simp

/-! ## 3. Values of which it is known what they hold -/

variable [Unicode.Xid] {flagged : Name → Name → Bool}

/-- The value has flags in the fields that are known to hold flags, of whatever nodes it has in it,
    and nowhere else; and nodes and fields go by identifiers. The truth value tells whether it is
    or lists flags itself. -/
inductive Known (flagged : Name → Name → Bool) : Bool → Value → Prop where
  | text (s : String) : Known flagged false (.text s)
  | flag (b : Bool) : Known flagged true (.flag b)
  | node {x : Name} {fields : List (Name × Value)} (hx : isIdentifier x = true)
    (hkeys : ∀ key v, (key, v) ∈ fields → isIdentifier key = true)
    (hfields : ∀ key v, (key, v) ∈ fields → Known flagged (flagged x key) v) :
    Known flagged false (.node x fields)
  | list {w : Bool} {items : List Value} (hitems : ∀ v ∈ items, Known flagged w v) :
    Known flagged w (.list items)

/-- The mark that a value starts with, if it does not start with a word. -/
def mark? : Value → Option Char
  | text _ => some '"'
  | list _ => some '['
  | _ => none

/-- The truth values are written with letters. -/
theorem isWord_render_flag (hxid : Unicode.Xid.Standard) (b : Bool) :
    isWord (flag b).render.toList = true := by
  refine Text.isWord_of_ascii hxid ?_
  revert b
  decide

theorem mark?_eq (hxid : Unicode.Xid.Ascii) {w : Bool} {v : Value} (h : v.Known flagged w)
    (r : List Char) :
    (v.render.toList ++ r).head?.filter (!Unicode.isXidContinue ·) = v.mark? := by
  have hmark : ∀ {c : Char}, Text.isMark c = true →
      (some c).filter (!Unicode.isXidContinue ·) = some c := by
    intro c hc
    simp [Text.isXidContinue_eq_false hxid hc]
  have hname : ∀ {cs : List Char}, isWord cs = true → cs ≠ [] → ∀ r,
      (cs ++ r).head?.filter (!Unicode.isXidContinue ·) = none := by
    intro cs hword hne r
    cases cs with
    | nil => exact absurd rfl hne
    | cons c cs => simp [Text.isWord_iff.1 hword c List.mem_cons_self]
  cases h with
  | text s =>
    rw [render, Text.quote, String.toList_ofList]
    exact hmark (by decide)
  | flag b => exact hname (isWord_render_flag hxid.toStandard b) (by cases b <;> decide) r
  | @node x _ hx _ _ =>
    rw [toList_render_node, List.append_assoc]
    refine hname (Text.isWord_of_isIdentifier hxid.toStandard hx) (fun hnil => ?_) _
    rw [isIdentifier, hnil] at hx
    contradiction
  | list _ =>
    rw [toList_render_list]
    exact hmark (by decide)

theorem mark_eq (hxid : Unicode.Xid.Ascii) {w : Bool} {v v' : Value} {r s : List Char}
    (hv : v.Known flagged w) (hv' : v'.Known flagged w)
    (h : v.render.toList ++ r = v'.render.toList ++ s) : v.mark? = v'.mark? := by
  rw [← mark?_eq hxid hv r, h, mark?_eq hxid hv' s]

/-- No value starts with the bracket that closes a list. -/
theorem ne_bracket (hxid : Unicode.Xid.Ascii) {w : Bool} {v : Value} (h : v.Known flagged w)
    {r s : List Char} : v.render.toList ++ r ≠ ']' :: s := by
  intro heq
  have hmark := mark?_eq hxid h r
  rw [heq] at hmark
  have hbracket : Unicode.isXidContinue ']' = false :=
    Text.isXidContinue_eq_false hxid (by decide)
  cases v <;> simp [mark?, hbracket] at hmark

theorem Known.of_mem {w : Bool} {items : List Value} (h : Known flagged w (.list items)) :
    ∀ v ∈ items, v.Known flagged w := by
  cases h with
  | list hitems => exact hitems

/-- The fields of a node of the given entity. -/
def KnownFields (flagged : Name → Name → Bool) (x : Name) (fields : List (Name × Value)) : Prop :=
  ∀ key v, (key, v) ∈ fields → isIdentifier key = true ∧ v.Known flagged (flagged x key)

theorem Known.of_node {w : Bool} {x : Name} {fields : List (Name × Value)}
    (h : Known flagged w (.node x fields)) :
    isIdentifier x = true ∧ KnownFields flagged x fields := by
  cases h with
  | node hx hkeys hfields => exact ⟨hx, fun key v hv => ⟨hkeys key v hv, hfields key v hv⟩⟩

theorem parted_bodyChars (hxid : Unicode.Xid.Ascii) (fields : List (Name × Value)) {r : List Char}
    (h : Parted r) : Parted (bodyChars fields ++ r) := by
  cases fields with
  | nil => exact h
  | cons field fields => exact .cons hxid (by decide) _

theorem ends_fields (hxid : Unicode.Xid.Ascii) (fields : List (Name × Value)) (r : List Char) :
    Ends ((renderFields fields).toList ++ ' ' :: '\x7d' :: r) := by
  cases fields with
  | nil => exact .brace hxid r
  | cons field fields =>
    rw [toList_renderFields_cons]
    exact .comma hxid _

theorem ends_items (hxid : Unicode.Xid.Ascii) (items : List Value) (r : List Char) :
    Ends ((renderItems items).toList ++ ']' :: r) := by
  cases items with
  | nil => exact .bracket hxid r
  | cons v items =>
    rw [toList_renderItems_cons]
    exact .comma hxid _

mutual

/-- The text of a value tells where it ends and what the value is. -/
theorem render_eq (hxid : Unicode.Xid.Ascii) : ∀ (v v' : Value) ⦃w : Bool⦄ ⦃r s : List Char⦄,
    v.Known flagged w → v'.Known flagged w → Ends r → Ends s →
    v.render.toList ++ r = v'.render.toList ++ s → v = v' ∧ r = s
  | .text t, v' => by
    intro w r s hv hv' hr hs h
    have hmark := mark_eq hxid hv hv' h
    cases v' with
    | text u =>
      obtain ⟨rfl, rfl⟩ := Text.quote_eq h
      exact ⟨rfl, rfl⟩
    | _ => simp [mark?] at hmark
  | .flag b, v' => by
    intro w r s hv hv' hr hs h
    have hmark := mark_eq hxid hv hv' h
    cases v' with
    | flag c =>
      have hflag : ∀ b c : Bool, (flag b).render.toList = (flag c).render.toList → b = c := by
        decide
      obtain ⟨hsame, rfl⟩ := Text.word_eq (isWord_render_flag hxid.toStandard b)
        (isWord_render_flag hxid.toStandard c) hr.parted hs.parted h
      rw [hflag b c hsame]
      exact ⟨rfl, rfl⟩
    -- a name may be that of a flag, but it is known which of the two it is
    | node x fields => cases hv; cases hv'
    | _ => simp [mark?] at hmark
  | .node x fields, v' => by
    intro w r s hv hv' hr hs h
    have hmark := mark_eq hxid hv hv' h
    cases v' with
    | flag c => cases hv; cases hv'
    | node x' fields' =>
      obtain ⟨hx, hfields⟩ := hv.of_node
      obtain ⟨hx', hfields'⟩ := hv'.of_node
      rw [toList_render_node, toList_render_node, List.append_assoc, List.append_assoc] at h
      obtain ⟨hname, hbody⟩ := Text.word_eq (Text.isWord_of_isIdentifier hxid.toStandard hx)
        (Text.isWord_of_isIdentifier hxid.toStandard hx')
        (parted_bodyChars hxid fields hr.parted) (parted_bodyChars hxid fields' hs.parted) h
      obtain rfl := String.toList_inj.1 hname
      cases fields with
      | nil =>
        cases fields' with
        | nil => exact ⟨rfl, hbody⟩
        | cons field' fields' => exact absurd hbody (hr.closed _)
      | cons field fields =>
        cases fields' with
        | nil => exact absurd hbody.symm (hs.closed _)
        | cons field' fields' =>
          have hchars : (renderFields (field :: fields)).toList ++ ' ' :: '\x7d' :: r =
              (renderFields (field' :: fields')).toList ++ ' ' :: '\x7d' :: s := by
            simpa [bodyChars, toList_renderFields_cons] using hbody
          obtain ⟨hsame, rfl⟩ :=
            renderFields_eq hxid (field :: fields) (field' :: fields') hfields hfields' hchars
          exact ⟨congrArg (node x) hsame, rfl⟩
    | _ => simp [mark?] at hmark
  | .list items, v' => by
    intro w r s hv hv' hr hs h
    have hmark := mark_eq hxid hv hv' h
    cases v' with
    | list items' =>
      have hitems := hv.of_mem
      have hitems' := hv'.of_mem
      have hchars : itemChars items ++ ']' :: r = itemChars items' ++ ']' :: s := by
        simpa [toList_render_list] using h
      cases items with
      | nil =>
        cases items' with
        | nil => exact ⟨rfl, List.tail_eq_of_cons_eq hchars⟩
        | cons v' items' =>
          rw [itemChars, itemChars, List.append_assoc] at hchars
          exact absurd hchars.symm (ne_bracket hxid (hitems' v' List.mem_cons_self))
      | cons v items =>
        cases items' with
        | nil =>
          rw [itemChars, itemChars, List.append_assoc] at hchars
          exact absurd hchars (ne_bracket hxid (hitems v List.mem_cons_self))
        | cons v' items' =>
          obtain ⟨hsame, rfl⟩ := renderItems_eq hxid (v :: items) (v' :: items') hitems hitems' (by
            simpa [toList_renderItems_cons] using hchars)
          exact ⟨congrArg list hsame, rfl⟩
    | _ => simp [mark?] at hmark

theorem renderFields_eq (hxid : Unicode.Xid.Ascii) :
    ∀ (fs fs' : List (Name × Value)) ⦃x : Name⦄ ⦃r s : List Char⦄,
    KnownFields flagged x fs → KnownFields flagged x fs' →
    (renderFields fs).toList ++ ' ' :: '\x7d' :: r =
      (renderFields fs').toList ++ ' ' :: '\x7d' :: s → fs = fs' ∧ r = s
  | [], fs' => by
    intro x r s _ _ h
    cases fs' with
    | nil => simpa [renderFields] using h
    | cons field fs' => simp [renderFields] at h
  | (key, v) :: fs, fs' => by
    intro x r s hfs hfs' h
    cases fs' with
    | nil => simp [renderFields] at h
    | cons field fs' =>
      obtain ⟨key', v'⟩ := field
      obtain ⟨hkey, hv⟩ := hfs key v List.mem_cons_self
      obtain ⟨hkey', hv'⟩ := hfs' key' v' List.mem_cons_self
      simp only [toList_renderFields_cons, fieldChars, List.cons_append, List.append_assoc,
        List.cons.injEq, true_and] at h
      obtain ⟨hname, hrest⟩ := Text.word_eq (Text.isWord_of_isIdentifier hxid.toStandard hkey)
        (Text.isWord_of_isIdentifier hxid.toStandard hkey') (.cons hxid (by decide) _)
        (.cons hxid (by decide) _) h
      obtain rfl := String.toList_inj.1 hname
      obtain ⟨rfl, hfields⟩ := render_eq hxid v v' hv hv' (ends_fields hxid fs r)
        (ends_fields hxid fs' s) (List.tail_eq_of_cons_eq (List.tail_eq_of_cons_eq hrest))
      obtain ⟨rfl, rfl⟩ := renderFields_eq hxid fs fs'
        (fun key v h => hfs key v (List.mem_cons_of_mem _ h))
        (fun key v h => hfs' key v (List.mem_cons_of_mem _ h)) hfields
      exact ⟨rfl, rfl⟩

theorem renderItems_eq (hxid : Unicode.Xid.Ascii) :
    ∀ (vs vs' : List Value) ⦃w : Bool⦄ ⦃r s : List Char⦄,
    (∀ v ∈ vs, v.Known flagged w) → (∀ v ∈ vs', v.Known flagged w) →
    (renderItems vs).toList ++ ']' :: r = (renderItems vs').toList ++ ']' :: s → vs = vs' ∧ r = s
  | [], vs' => by
    intro w r s _ _ h
    cases vs' with
    | nil => simpa [renderItems] using h
    | cons v' vs' => simp [renderItems] at h
  | v :: vs, vs' => by
    intro w r s hvs hvs' h
    cases vs' with
    | nil => simp [renderItems] at h
    | cons v' vs' =>
      simp only [toList_renderItems_cons, itemChars, List.cons_append, List.append_assoc,
        List.cons.injEq, true_and] at h
      obtain ⟨rfl, hitems⟩ := render_eq hxid v v' (hvs v List.mem_cons_self)
        (hvs' v' List.mem_cons_self) (ends_items hxid vs r) (ends_items hxid vs' s) h
      obtain ⟨rfl, rfl⟩ := renderItems_eq hxid vs vs' (fun v h => hvs v (List.mem_cons_of_mem _ h))
        (fun v h => hvs' v (List.mem_cons_of_mem _ h)) hitems
      exact ⟨rfl, rfl⟩

end

/-! ## 4. Values of a model -/

/-- What is known of a node: its name and those of its fields, and which of these hold flags. -/
def KnownNode (flagged : Name → Name → Bool) (x : Name) (fields : List (Name × Value)) : Prop :=
  isIdentifier x = true ∧ ∀ key v, (key, v) ∈ fields →
    isIdentifier key = true ∧ ∃ plural, v.Each plural (Single (flagged x key))

/-- A single value, or several of them, with nodes that are known. -/
theorem Known.of_each : ∀ (v : Value) {w plural : Bool}, v.Each plural (Single w) →
    (∀ x fields, Inside (.node x fields) v → KnownNode flagged x fields) → v.Known flagged w
  | v, w, true, heach, hnodes => by
    obtain ⟨items, rfl, hitems⟩ := heach
    refine .list fun v hv => ?_
    have hsingle : v.Each false (Single w) := hitems v hv
    exact of_each v hsingle fun x fields h => hnodes x fields (.item hv h)
  | .text s, w, false, hsingle, _ => hsingle.isWitness_eq_false nofun ▸ .text s
  | .flag b, w, false, hsingle, _ => hsingle.2.1 ⟨b, rfl⟩ ▸ .flag b
  | .node x fields, w, false, hsingle, hnodes => by
    obtain ⟨hx, hfields⟩ := hnodes x fields .self
    rw [hsingle.isWitness_eq_false nofun]
    refine .node hx (fun key v hv => (hfields key v hv).1) fun key v hv => ?_
    obtain ⟨_, plural, heach⟩ := hfields key v hv
    exact of_each v heach fun y fields' h => hnodes y fields' (.field hv h)
  | .list items, w, false, hsingle, _ => absurd rfl (hsingle.1 items)
termination_by v => sizeOf v
decreasing_by
  · subst_vars
    have := List.sizeOf_lt_of_mem hv
    simp
    omega
  · have := List.sizeOf_lt_of_mem hv
    simp at this ⊢
    omega

end Value

/-- Whether the property that an entity has under a name holds flags. -/
def Model.flagged (m : Model) (x key : Name) : Bool :=
  match (m.entity? x).bind (·.property? key) with
  | none => false
  | some id =>
    match m.property id >>= fun q => m.action q.source with
    | .ok a => a.isWitness
    | .error _ => false

theorem Model.FieldShaped.exists_each {m : Model} {x key : Name} {e : Entity} {w : Value}
    (h : m.FieldShaped e key w) (he : m.entity? x = some e) :
    ∃ plural, w.Each plural (Value.Single (m.flagged x key)) := by
  obtain ⟨id, plural, q, a, hkey, _, hq, ha, heach⟩ := h
  have hflagged : m.flagged x key = a.isWitness := by
    simp only [Model.flagged, he, Option.bind_some, hkey, hq, bind, Except.bind, ha]
  exact ⟨plural, hflagged ▸ heach⟩

section

variable [Unicode.Xid] {g : Grammar} {engine : Engine} {m : Model} {config : ReadConfig}
  {p : Program} {patterns : Patterns}

/-- It is known of a result what it holds, where the rules go by identifiers. -/
theorem Program.Made.known_of_read (hxid : Unicode.Xid.Ascii)
    (hmade : p.Made engine m config patterns) (hreached : Build.Reached g m True)
    (hsurveyed : Build.Surveyed m) (hg : g.Identified) {text : String} {node : Node}
    (hread : p.read text = .ok (.ok node)) : node.toValue.Known m.flagged false := by
  refine Value.Known.of_each _ (show Value.Each false _ _ from .node node) fun x fields h => ?_
  obtain ⟨_, depth, s, t, hentity⟩ := hmade.instance_of_read hreached hread x fields h
  obtain ⟨e, he, hshaped⟩ := hmade.shaped_entity hreached hsurveyed depth x s _ t hentity
  have hmem := Model.mem_of_entity?_eq_some he
  obtain rfl := Model.name_of_entity?_eq_some he
  refine ⟨hreached.isIdentifier_entity hg (List.mem_map_of_mem hmem), fun key v hv => ?_⟩
  have hfield := hshaped.shaped key v hv
  obtain ⟨id, _, _, _, hkey, _⟩ := id hfield
  have hname := hreached.isIdentifier_current hxid.toStandard hxid.starts hg hmem
    (Ordered.mem_of_get? hkey)
  exact ⟨hname, hfield.exists_each he⟩

/-- Within a model the compact form tells results apart: if the rules of its grammar go by
    identifiers, then two texts of which the results are written alike have the same result. Of
    identifiers it is only used what the first 128 characters are in them. -/
theorem compact_text_faithful {n : Nat} (hxid : Unicode.Xid.Ascii)
    (hmodel : Model.ofGrammar g = .ok m) (hnames : g.Identified)
    (hprogram : Program.ofModel engine m config = .ok (p, n)) {text text' : String}
    {node node' : Node} (hread : p.read text = .ok (.ok node))
    (hread' : p.read text' = .ok (.ok node')) (hsame : node.render = node'.render) :
    node = node' := by
  obtain ⟨hreached, hsurveyed⟩ := Build.reached_ofGrammar hmodel
  obtain ⟨patterns, hmade⟩ := Program.made_of_ofModel hprogram
  have hknown := hmade.known_of_read hxid hreached hsurveyed hnames hread
  have hknown' := hmade.known_of_read hxid hreached hsurveyed hnames hread'
  have hchars : node.toValue.render.toList ++ [] = node'.toValue.render.toList ++ [] :=
    congrArg (String.toList · ++ []) hsame
  obtain ⟨hvalue, _⟩ := Value.render_eq hxid _ _ hknown hknown' .nil .nil hchars
  obtain ⟨entity, fields⟩ := node
  obtain ⟨rfl, rfl⟩ := Value.node.inj hvalue
  rfl

end

namespace Answers

/-- A letter that may be there or not, and an entity that goes by the name of a flag. -/
def grammar : Grammar where
  rules := [
    { name := "answer",
      body := .sequence (.optional (.literal (some "x") "a")) (.reference none "true") },
    { name := "true", body := .literal (some "_") "b" }]

def answer : Entity where
  name := "answer"
  rule := grammar.rule? "answer"
  properties := [("x", ⟨0⟩), ("true", ⟨1⟩)]
  action := some ⟨2⟩

def affirmation : Entity where
  name := "true"
  rule := grammar.rule? "true"
  action := some ⟨3⟩

/-- The model of the answers. -/
def model : Model where
  entities := [answer, affirmation]
  properties := #[
    { name := "x", entity := "answer", source := ⟨0⟩ },
    { name := "true", entity := "answer", source := ⟨1⟩ }]
  actions := #[
    { kind := .literal "a", isOptional := true, isWitness := true, property := some ⟨0⟩,
      parent := some ⟨2⟩ },
    { kind := .entity "true", property := some ⟨1⟩, parent := some ⟨2⟩ },
    { kind := .all [⟨0⟩, ⟨1⟩] },
    { kind := .literal "b" }]
  root := some "answer"

/-- The program of the answers, which passes over spaces. -/
def program : Program where
  root := "answer"
  ignore := some (.greedy Unicode.isBlank)
  maxDepth := 256
  procedures := model.entities.map fun e => (e.name, Procedure.ofModel model [] e)

theorem walk_eq (events : Array Event) (attached : List (Name × PropertyId)) :
    Build.walk ["answer", "true"] [] ["answer"] { model, events, attached } =
      .ok () { model, events, attached } := by
  have hanswer : Build.discover answer { model, events, attached } =
      .ok ["true"] { model, events, attached } := by
    cbv
  have haffirmation : Build.discover affirmation { model, events, attached } =
      .ok [] { model, events, attached } := by
    cbv
  rw [Build.walk_cons (by decide) rfl hanswer, List.append_nil,
    Build.walk_cons (by decide) rfl haffirmation, List.nil_append, Build.walk]
  rfl

theorem ofGrammar_eq : Model.ofGrammar grammar = .ok model :=
  Build.ofGrammar_of_walk (m := model) (by cbv) rfl
    fun events attached => ⟨_, _, walk_eq events attached⟩

theorem ofModel_eq : Program.ofModel Indented.engine model {} = .ok (program, 0) :=
  rfl

/-- What both letters are read as. -/
def node : Node where
  entity := "answer"
  fields := [("x", .flag true), ("true", .node "true" [])]

theorem read_eq : program.read "ab" = .ok (.ok node) := by
  decide +kernel

theorem read_spaced_eq : program.read "a b" = .ok (.ok node) := by
  decide +kernel

theorem render_eq : node.render = "answer \x7b x: true, true: true \x7d" := by
  decide

end Answers

/-- The two letters, with or without a space between them, are read as an answer with a flag and a
    node that are written alike. No other result is written in this way. -/
theorem compact_text_faithful_answers :
    Unicode.Xid.Ascii ∧
    Model.ofGrammar Answers.grammar = .ok Answers.model ∧ Answers.grammar.Identified ∧
    Program.ofModel Indented.engine Answers.model {} = .ok (Answers.program, 0) ∧
    Answers.program.read "ab" = .ok (.ok Answers.node) ∧
    Answers.program.read "a b" = .ok (.ok Answers.node) ∧
    Answers.node.render = "answer \x7b x: true, true: true \x7d" ∧
    ∀ text node, Answers.program.read text = .ok (.ok node) →
      node.render = "answer \x7b x: true, true: true \x7d" → node = Answers.node := by
  have hidentified : Answers.grammar.Identified := by decide
  have hxid : Unicode.Xid.Ascii := Unicode.ascii_version18
  refine ⟨hxid, Answers.ofGrammar_eq, hidentified, Answers.ofModel_eq, Answers.read_eq,
    Answers.read_spaced_eq, Answers.render_eq, fun text node hread hsame => ?_⟩
  exact compact_text_faithful hxid Answers.ofGrammar_eq hidentified Answers.ofModel_eq hread
    Answers.read_eq (hsame.trans Answers.render_eq.symm)

end Ebnf
