import Ebnf.Json
import Ebnf.Text.Quoted
import Mathlib.Data.List.TakeWhile

/-!
# Reading quoted texts back

A text between quotation marks tells where it ends and what it holds, whatever follows it: what one
character was written as is read back, and no character is written as a bare quotation mark. This
holds of the compact form of texts and of the literals of JSON alike.

* `Text.quoted_eq`: any way of escaping that can be read back;
* `Text.unescape_escapeChar`, `Json.unescape_escapeChar`: reading back one character;
* `Text.quote_eq`, `Json.stringLiteral_eq`: whole texts with what follows them.
-/

namespace Ebnf

namespace Text

/-! ## 1. Up to the closing mark -/

/-- Where each character can be read back from the way it is written, and none is written as a
    quotation mark, the text up to the mark is read back, and what follows the mark is left. -/
theorem quoted_eq {escape : Char → List Char} {unescape : List Char → Option (Char × List Char)}
    (hread : ∀ c r, unescape (escape c ++ r) = some (c, r))
    (hquote : ∀ r, unescape ('"' :: r) = none) {cs ds r s : List Char}
    (h : cs.flatMap escape ++ '"' :: r = ds.flatMap escape ++ '"' :: s) : cs = ds ∧ r = s := by
  induction cs generalizing ds with
  | nil =>
    cases ds with
    | nil => exact ⟨rfl, List.tail_eq_of_cons_eq h⟩
    | cons d ds =>
      have hd := congrArg unescape h
      rw [List.flatMap_nil, List.nil_append, hquote, List.flatMap_cons, List.append_assoc,
        hread] at hd
      contradiction
  | cons c cs ih =>
    have hc := congrArg unescape h
    rw [List.flatMap_cons, List.append_assoc, hread] at hc
    cases ds with
    | nil =>
      rw [List.flatMap_nil, List.nil_append, hquote] at hc
      contradiction
    | cons d ds =>
      rw [List.flatMap_cons, List.append_assoc, hread] at hc
      obtain ⟨rfl, hrest⟩ := Prod.mk.inj (Option.some.inj hc)
      obtain ⟨rfl, rfl⟩ := ih hrest
      exact ⟨rfl, rfl⟩

/-! ## 2. Hexadecimal numbers -/

/-- What a hexadecimal digit counts. -/
def hexValue (d : Char) : Nat :=
  if d.isDigit then d.toNat - '0'.toNat else d.toNat - 'a'.toNat + 10

/-- The number that hexadecimal digits stand for. -/
def hexNumber (ds : List Char) : Nat :=
  ds.foldl (fun n d => 16 * n + hexValue d) 0

theorem hexValue_digitChar {n : Nat} (h : n < 16) : hexValue (Nat.digitChar n) = n := by
  revert n
  decide

theorem hexNumber_lowerHex (n : Nat) : hexNumber (lowerHex n) = n := by
  unfold lowerHex
  induction n using Nat.strongRecOn with
  | ind n ih =>
    rw [Nat.toDigits_eq_if (by decide)]
    split
    · next hlt => exact (Nat.zero_add _).trans (hexValue_digitChar hlt)
    · next hlt =>
      have hfront : hexNumber (Nat.toDigits 16 (n / 16)) = n / 16 := ih (n / 16) (by omega)
      unfold hexNumber at hfront ⊢
      rw [List.foldl_append, hfront, List.foldl_cons, List.foldl_nil,
        hexValue_digitChar (Nat.mod_lt n (by decide))]
      exact Nat.div_add_mod n 16

/-- No digit is the brace that closes an escape. -/
theorem ne_brace_of_mem_lowerHex {n : Nat} {d : Char} (h : d ∈ lowerHex n) : d ≠ '\x7d' := by
  have hdigit : ∀ k < 16, Nat.digitChar k ≠ '\x7d' := by decide
  unfold lowerHex at h
  induction n using Nat.strongRecOn with
  | ind n ih =>
    rw [Nat.toDigits_eq_if (by decide)] at h
    split at h
    · next hlt => exact List.mem_singleton.1 h ▸ hdigit n hlt
    · next hlt =>
      rcases List.mem_append.1 h with h | h
      · exact ih (n / 16) (by omega) h
      · exact List.mem_singleton.1 h ▸ hdigit _ (Nat.mod_lt n (by decide))

/-! ## 3. The compact form -/

/-- The character that comes first in a quoted text, and what follows it. A quotation mark is the
    end of the text. -/
def unescape : List Char → Option (Char × List Char)
  | [] => none
  | '"' :: _ => none
  | '\\' :: '0' :: r => some ('\x00', r)
  | '\\' :: 't' :: r => some ('\t', r)
  | '\\' :: 'r' :: r => some ('\r', r)
  | '\\' :: 'n' :: r => some ('\n', r)
  | '\\' :: '\\' :: r => some ('\\', r)
  | '\\' :: '"' :: r => some ('"', r)
  | '\\' :: 'u' :: '\x7b' :: r =>
    some (.ofNat (hexNumber (r.takeWhile (· ≠ '\x7d'))), (r.dropWhile (· ≠ '\x7d')).tail)
  | c :: r => some (c, r)

theorem unescape_escapeChar (c : Char) (r : List Char) :
    unescape (escapeChar c ++ r) = some (c, r) := by
  unfold escapeChar
  iterate 6
    split
    · next h => rw [h]; rfl
  split
  · have hdigits : ∀ d ∈ lowerHex c.toNat, decide (d ≠ '\x7d') = true := fun d hd =>
      decide_eq_true (ne_brace_of_mem_lowerHex hd)
    simp only [List.cons_append, List.append_assoc, List.nil_append]
    rw [unescape, List.takeWhile_append_of_pos hdigits, List.dropWhile_append_of_pos hdigits,
      List.takeWhile_cons_of_neg (by simp), List.dropWhile_cons_of_neg (by simp), List.append_nil,
      hexNumber_lowerHex, Char.ofNat_toNat, List.tail_cons]
  · rw [List.singleton_append, unescape.eq_def]
    split <;> simp_all

/-- A quoted text tells where it ends and what it is. -/
theorem quote_eq {t u : String} {r s : List Char}
    (h : (quote t).toList ++ r = (quote u).toList ++ s) : t = u ∧ r = s := by
  simp only [quote, String.toList_ofList, List.cons_append, List.append_assoc] at h
  obtain ⟨hchars, hrest⟩ := quoted_eq unescape_escapeChar (fun _ => rfl) (List.tail_eq_of_cons_eq h)
  exact ⟨String.toList_inj.1 hchars, hrest⟩

end Text

/-! ## 4. The literals of JSON -/

namespace Json

/-- The character that comes first in a literal, and what follows it. A quotation mark is the end of
    the literal. -/
def unescape : List Char → Option (Char × List Char)
  | [] => none
  | '"' :: _ => none
  | '\\' :: '"' :: r => some ('"', r)
  | '\\' :: '\\' :: r => some ('\\', r)
  | '\\' :: 'b' :: r => some ('\x08', r)
  | '\\' :: 'f' :: r => some ('\x0c', r)
  | '\\' :: 'n' :: r => some ('\n', r)
  | '\\' :: 'r' :: r => some ('\r', r)
  | '\\' :: 't' :: r => some ('\t', r)
  | '\\' :: 'u' :: '0' :: '0' :: d :: e :: r => some (.ofNat (Text.hexNumber [d, e]), r)
  | c :: r => some (c, r)

theorem hexNumber_controlDigits {n : Nat} (h : n < 32) : Text.hexNumber (controlDigits n) = n := by
  revert n
  decide

theorem unescape_escapeChar (c : Char) (r : List Char) :
    unescape (escapeChar c ++ r) = some (c, r) := by
  unfold escapeChar
  iterate 7
    split
    · next h => rw [h]; rfl
  split
  · next h =>
    have hnumber := hexNumber_controlDigits h
    rw [controlDigits] at hnumber ⊢
    simp only [List.cons_append, List.nil_append]
    rw [unescape, hnumber, Char.ofNat_toNat]
  · rw [List.singleton_append, unescape.eq_def]
    split <;> simp_all

/-- A literal tells where it ends and what it holds. -/
theorem stringLiteral_eq {t u : String} {r s : List Char}
    (h : stringLiteral t ++ r = stringLiteral u ++ s) : t = u ∧ r = s := by
  simp only [stringLiteral, List.cons_append, List.append_assoc] at h
  obtain ⟨hchars, hrest⟩ :=
    Text.quoted_eq unescape_escapeChar (fun _ => rfl) (List.tail_eq_of_cons_eq h)
  exact ⟨String.toList_inj.1 hchars, hrest⟩

end Json

end Ebnf
