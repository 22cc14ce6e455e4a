import Ebnf.Proofs.Quoting
import Ebnf.View.Export

/-!
# The JSON text of a view tells what the view is

A JSON value is known by its first character, tells where it ends whatever follows, and its literals
are read back, so no two values are written alike. In a view, each part stands under a name of its
own, and a part that is missing is one whose name is not there.

* `Json.chars_eq`: a value and what follows it are known from the text;
* `Json.field?`, `ActionView.fields_toJson`: the parts of a view, found by their names;
* `view_text_eq_iff`: the text of a view and the view.
-/

namespace Ebnf

/-! ## 1. Values -/

namespace Json

/-- The character that a value starts with. -/
def lead : Json → Char
  | null => 'n'
  | bool b => if b then 't' else 'f'
  | string _ => '"'
  | array _ => '['
  | object _ => '\x7b'

theorem exists_chars (indent : Nat) (v : Json) : ∃ cs, v.chars indent = v.lead :: cs := by
  cases v with
  | null => exact ⟨_, rfl⟩
  | bool b => cases b <;> exact ⟨_, rfl⟩
  | string s => exact ⟨_, rfl⟩
  | array items => cases items <;> exact ⟨_, rfl⟩
  | object fields => cases fields <;> exact ⟨_, rfl⟩

/-- Values that are written alike start alike. -/
theorem lead_eq {indent : Nat} {v w : Json} {r s : List Char}
    (h : v.chars indent ++ r = w.chars indent ++ s) : v.lead = w.lead := by
  obtain ⟨cs, hcs⟩ := exists_chars indent v
  obtain ⟨ds, hds⟩ := exists_chars indent w
  rw [hcs, hds] at h
  exact List.head_eq_of_cons_eq h

mutual

/-- The text of a value tells where it ends and what the value is. -/
theorem chars_eq (indent : Nat) : ∀ (v w : Json) ⦃r s : List Char⦄,
    v.chars indent ++ r = w.chars indent ++ s → v = w ∧ r = s
  | null, w => by
    intro r s h
    have hlead := lead_eq h
    cases w with
    | null => exact ⟨rfl, List.append_cancel_left h⟩
    | _ => grind [lead]
  | bool b, w => by
    intro r s h
    have hlead := lead_eq h
    cases w with
    | bool c =>
      obtain rfl : b = c := by grind [lead]
      exact ⟨rfl, List.append_cancel_left h⟩
    | _ => grind [lead]
  | string t, w => by
    intro r s h
    have hlead := lead_eq h
    cases w with
    | string u =>
      obtain ⟨rfl, rfl⟩ := stringLiteral_eq h
      exact ⟨rfl, rfl⟩
    | _ => grind [lead]
  | array items, w => by
    intro r s h
    have hlead := lead_eq h
    cases w with
    | array items' =>
      cases items with
      | nil => cases items' <;> simp_all [chars, newline]
      | cons v items =>
        cases items' with
        | nil => simp [chars, newline] at h
        | cons v' items' =>
          have hlines : itemChars (indent + 2) (v :: items) ++
              '\n' :: (List.replicate indent ' ' ++ ']' :: r) =
                itemChars (indent + 2) (v' :: items') ++
                  '\n' :: (List.replicate indent ' ' ++ ']' :: s) := by
            simpa [chars, itemChars, newline] using h
          obtain ⟨hitems, hrest⟩ := itemChars_eq (indent + 2) (v :: items) (v' :: items') hlines
          exact ⟨congrArg array hitems, List.tail_eq_of_cons_eq (List.append_cancel_left hrest)⟩
    | _ => grind [lead]
  | object fields, w => by
    intro r s h
    have hlead := lead_eq h
    cases w with
    | object fields' =>
      cases fields with
      | nil => cases fields' <;> simp_all [chars, newline]
      | cons field fields =>
        cases fields' with
        | nil => simp [chars, newline] at h
        | cons field' fields' =>
          have hlines : fieldChars (indent + 2) (field :: fields) ++
              '\n' :: (List.replicate indent ' ' ++ '\x7d' :: r) =
                fieldChars (indent + 2) (field' :: fields') ++
                  '\n' :: (List.replicate indent ' ' ++ '\x7d' :: s) := by
            simpa [chars, fieldChars, newline] using h
          obtain ⟨hfields, hrest⟩ :=
            fieldChars_eq (indent + 2) (field :: fields) (field' :: fields') hlines
          exact ⟨congrArg object hfields, List.tail_eq_of_cons_eq (List.append_cancel_left hrest)⟩
    | _ => grind [lead]

/-- The items after the first one end where the line does. -/
theorem itemChars_eq (indent : Nat) : ∀ (vs ws : List Json) ⦃r s : List Char⦄,
    itemChars indent vs ++ '\n' :: r = itemChars indent ws ++ '\n' :: s → vs = ws ∧ r = s
  | [], ws => by
    intro r s h
    cases ws <;> simp_all [itemChars]
  | v :: vs, ws => by
    intro r s h
    cases ws with
    | nil => simp [itemChars] at h
    | cons w ws =>
      simp only [itemChars, List.cons_append, List.append_assoc, List.cons.injEq, true_and] at h
      obtain ⟨rfl, hitems⟩ := chars_eq indent v w (List.append_cancel_left h)
      obtain ⟨rfl, rfl⟩ := itemChars_eq indent vs ws hitems
      exact ⟨rfl, rfl⟩

/-- The fields after the first one end where the line does. -/
theorem fieldChars_eq (indent : Nat) : ∀ (fs gs : List (String × Json)) ⦃r s : List Char⦄,
    fieldChars indent fs ++ '\n' :: r = fieldChars indent gs ++ '\n' :: s → fs = gs ∧ r = s
  | [], gs => by
    intro r s h
    cases gs <;> simp_all [fieldChars]
  | (name, v) :: fs, gs => by
    intro r s h
    cases gs with
    | nil => simp [fieldChars] at h
    | cons field gs =>
      obtain ⟨name', w⟩ := field
      simp only [fieldChars, List.cons_append, List.append_assoc, List.cons.injEq, true_and,
        List.nil_append] at h
      obtain ⟨rfl, hv⟩ := stringLiteral_eq (List.append_cancel_left h)
      obtain ⟨rfl, hfields⟩ := chars_eq indent v w
        (List.tail_eq_of_cons_eq (List.tail_eq_of_cons_eq hv))
      obtain ⟨rfl, rfl⟩ := fieldChars_eq indent fs gs hfields
      exact ⟨rfl, rfl⟩

end

/-- No two values have the same text. -/
theorem render_injective : Function.Injective render := by
  intro v w h
  have hchars : v.chars 0 ++ [] = w.chars 0 ++ [] := by rw [String.ofList_injective h]
  exact (chars_eq 0 v w hchars).1

/-! ## 2. Parts under names -/

/-- The value that an object has under a name. -/
def field? (name : String) : Json → Option Json
  | object fields => Ordered.get? fields name
  | _ => none

/-- The value of a list that is left out where it is empty. -/
def listed? : List Json → Option Json
  | [] => none
  | v :: vs => some (array (v :: vs))

theorem listed?_injective : Function.Injective listed? := by
  intro vs ws h
  cases vs <;> cases ws <;> simp_all [listed?]

theorem string_injective : Function.Injective string :=
  fun _ _ => string.inj

theorem ofString?_injective : Function.Injective ofString? := by
  intro s t h
  cases s <;> cases t <;> simp_all [ofString?]

theorem ofStrings_injective : Function.Injective ofStrings := by
  intro ss ts h
  exact (List.map_inj_right string_injective).1 (array.inj h)

end Json

/-! ## 3. Views -/

open Json (field? listed?)

theorem ActionForm.name_injective : Function.Injective ActionForm.name := by
  intro form form' h
  cases form <;> cases form' <;> simp_all [ActionForm.name]

/-- The parts of an action. One that says nothing is not there. -/
theorem ActionView.fields_toJson (form : ActionForm) (value? : Option String)
    (isOptional isPlural isWitness : Bool) (property? : Option Name)
    (children : List ActionView) {v : Json}
    (hv : v = (node form value? isOptional isPlural isWitness property? children).toJson) :
    field? "kind" v = some (.string form.name) ∧
    field? "value" v = value?.map .string ∧
    field? "is_optional" v = some (.bool isOptional) ∧
    field? "is_plural" v = some (.bool isPlural) ∧
    field? "report_success" v = some (.bool isWitness) ∧
    field? "property" v = property?.map .string ∧
    field? "children" v = listed? (actionViewsToJson children) := by
  subst hv
  cases value? <;> cases property? <;> cases children <;>
    refine ⟨rfl, rfl, rfl, rfl, rfl, rfl, rfl⟩

mutual

theorem ActionView.eq_of_toJson_eq : ∀ a b : ActionView, a.toJson = b.toJson → a = b
  | .node form value? isOptional isPlural isWitness property? children,
    .node form' value?' isOptional' isPlural' isWitness' property?' children', h => by
    obtain ⟨hform, hvalue, hoptional, hplural, hwitness, hproperty, hchildren⟩ :=
      ActionView.fields_toJson form value? isOptional isPlural isWitness property? children rfl
    obtain ⟨hform', hvalue', hoptional', hplural', hwitness', hproperty', hchildren'⟩ :=
      ActionView.fields_toJson form' value?' isOptional' isPlural' isWitness' property?' children' h
    obtain rfl := ActionForm.name_injective
      (Json.string.inj (Option.some.inj (hform.symm.trans hform')))
    obtain rfl := Option.map_injective Json.string_injective (hvalue.symm.trans hvalue')
    obtain rfl := Json.bool.inj (Option.some.inj (hoptional.symm.trans hoptional'))
    obtain rfl := Json.bool.inj (Option.some.inj (hplural.symm.trans hplural'))
    obtain rfl := Json.bool.inj (Option.some.inj (hwitness.symm.trans hwitness'))
    obtain rfl := Option.map_injective Json.string_injective (hproperty.symm.trans hproperty')
    obtain rfl := actionViewsToJson_eq children children'
      (Json.listed?_injective (hchildren.symm.trans hchildren'))
    rfl

theorem actionViewsToJson_eq : ∀ as bs : List ActionView,
    actionViewsToJson as = actionViewsToJson bs → as = bs
  | [], [], _ => rfl
  | [], _ :: _, h => by simp [actionViewsToJson] at h
  | _ :: _, [], h => by simp [actionViewsToJson] at h
  | a :: as, b :: bs, h => by
    rw [actionViewsToJson, actionViewsToJson] at h
    obtain ⟨hhead, htail⟩ := List.cons.inj h
    rw [ActionView.eq_of_toJson_eq a b hhead, actionViewsToJson_eq as bs htail]

end

theorem ActionView.toJson_ne_null (a : ActionView) : a.toJson ≠ .null := by
  cases a
  simp [ActionView.toJson]

/-- The parts of a property. -/
theorem PropertyView.fields_toJson (p : PropertyView) :
    field? "name" p.toJson = some (.string p.name) ∧
    field? "type" p.toJson = some (.ofString? p.type) ∧
    field? "is_optional" p.toJson = some (.bool p.isOptional) ∧
    field? "is_plural" p.toJson = some (.bool p.isPlural) ∧
    field? "subsumed" p.toJson = listed? (p.subsumed.map .string) := by
  obtain ⟨name, type, isOptional, isPlural, subsumed⟩ := p
  cases subsumed <;> exact ⟨rfl, rfl, rfl, rfl, rfl⟩

theorem PropertyView.toJson_injective : Function.Injective PropertyView.toJson := by
  intro p q h
  obtain ⟨hname, htype, hoptional, hplural, hsubsumed⟩ := p.fields_toJson
  obtain ⟨hname', htype', hoptional', hplural', hsubsumed'⟩ := q.fields_toJson
  rw [h] at hname htype hoptional hplural hsubsumed
  obtain ⟨name, type, isOptional, isPlural, subsumed⟩ := p
  obtain rfl := Json.string.inj (Option.some.inj (hname.symm.trans hname'))
  obtain rfl := Json.ofString?_injective (Option.some.inj (htype.symm.trans htype'))
  obtain rfl := Json.bool.inj (Option.some.inj (hoptional.symm.trans hoptional'))
  obtain rfl := Json.bool.inj (Option.some.inj (hplural.symm.trans hplural'))
  obtain rfl := (List.map_inj_right Json.string_injective).1
    (Json.listed?_injective (hsubsumed.symm.trans hsubsumed'))
  rfl

theorem EntityView.toJson_injective : Function.Injective EntityView.toJson := by
  rintro ⟨name, isVirtual, effectiveType, supers, subs, properties, action⟩
    ⟨name', isVirtual', effectiveType', supers', subs', properties', action'⟩ h
  simp only [EntityView.toJson, Json.object.injEq, List.cons.injEq, Prod.mk.injEq, true_and,
    and_true, Json.string.injEq, Json.bool.injEq] at h
  obtain ⟨rfl, rfl, rfl, hsupers, hsubs, hproperties, haction⟩ := h
  obtain rfl := Json.ofStrings_injective hsupers
  obtain rfl := Json.ofStrings_injective hsubs
  obtain rfl := (List.map_inj_right PropertyView.toJson_injective).1 (Json.array.inj hproperties)
  cases action with
  | none =>
    cases action' with
    | none => rfl
    | some b => exact absurd haction.symm b.toJson_ne_null
  | some a =>
    cases action' with
    | none => exact absurd haction a.toJson_ne_null
    | some b => rw [a.eq_of_toJson_eq b haction]

theorem ModelView.toJson_injective : Function.Injective ModelView.toJson := by
  rintro ⟨root, entities⟩ ⟨root', entities'⟩ h
  simp only [ModelView.toJson, Json.object.injEq, List.cons.injEq, Prod.mk.injEq, true_and,
    and_true] at h
  obtain ⟨hroot, hentities⟩ := h
  rw [Json.ofString?_injective hroot,
    (List.map_inj_right EntityView.toJson_injective).1 (Json.array.inj hentities)]

/-- Views have the same text exactly if they are the same, whatever is left out of them, however
    deep their actions are nested, and whatever stands in their texts. -/
theorem view_text_eq_iff (v w : ModelView) : v.render = w.render ↔ v = w :=
  ⟨fun h => ModelView.toJson_injective (Json.render_injective h), fun h => by rw [h]⟩

example : ({ root := some "null", entities := [] } : ModelView).render ≠
    ({ root := none, entities := [] } : ModelView).render := by decide

end Ebnf
