/-!
# Texts measured in bytes

Offsets count the bytes of the UTF-8 form of a text, while the text itself is a list of characters.

* `byteLength`: the number of bytes of a text;
* `dropBytes`: the text from an offset on, if the offset falls between two characters.

The main facts are that `dropBytes` undoes a known beginning (`dropBytes_byteLength_append`) and
that cutting twice is cutting once (`dropBytes_add`).
-/

namespace Ebnf.Text

/-! ## 1. Length -/

/-- The number of bytes that the UTF-8 form of a text takes. -/
def byteLength : List Char → Nat
  | [] => 0
  | c :: cs => c.utf8Size + byteLength cs

@[simp] theorem byteLength_nil : byteLength [] = 0 := rfl

@[simp] theorem byteLength_cons (c : Char) (cs : List Char) :
    byteLength (c :: cs) = c.utf8Size + byteLength cs := rfl

@[simp] theorem byteLength_append (cs ds : List Char) :
    byteLength (cs ++ ds) = byteLength cs + byteLength ds := by
  induction cs with
  | nil => simp
  | cons c cs ih => simp [ih, Nat.add_assoc]

/-! ## 2. Cutting -/

/-- The text without its first `n` bytes, or `none` where `n` lies inside a character or past the
    end. -/
def dropBytes : Nat → List Char → Option (List Char)
  | 0, cs => some cs
  | _ + 1, [] => none
  | n + 1, c :: cs => if c.utf8Size ≤ n + 1 then dropBytes (n + 1 - c.utf8Size) cs else none

@[simp] theorem dropBytes_zero (cs : List Char) : dropBytes 0 cs = some cs := by
  cases cs <;> rfl

/-- Passing a whole first character leaves the rest to be cut. -/
theorem dropBytes_utf8Size_add (n : Nat) (c : Char) (cs : List Char) :
    dropBytes (c.utf8Size + n) (c :: cs) = dropBytes n cs := by
  have hpos := c.utf8Size_pos
  obtain ⟨k, hk⟩ : ∃ k, c.utf8Size + n = k + 1 := ⟨c.utf8Size + n - 1, by omega⟩
  have hle : c.utf8Size ≤ k + 1 := by omega
  have hsub : k + 1 - c.utf8Size = n := by omega
  rw [hk, dropBytes, if_pos hle, hsub]

/-- Dropping the bytes of a known beginning leaves exactly what follows it. -/
@[simp] theorem dropBytes_byteLength_append (cs ds : List Char) :
    dropBytes (byteLength cs) (cs ++ ds) = some ds := by
  induction cs with
  | nil => simp
  | cons c cs ih =>
    rw [byteLength_cons, List.cons_append, dropBytes_utf8Size_add, ih]

/-- What a cut leaves is the end of the text, and the cut lies where that end begins. -/
theorem dropBytes_eq_some_iff {n : Nat} {cs rest : List Char} :
    dropBytes n cs = some rest ↔ ∃ front, cs = front ++ rest ∧ byteLength front = n := by
  constructor
  · intro h
    induction cs generalizing n with
    | nil =>
      cases n with
      | zero => exact ⟨[], by simpa using h, rfl⟩
      | succ n => simp [dropBytes] at h
    | cons c cs ih =>
      cases n with
      | zero => exact ⟨[], by simpa using h, rfl⟩
      | succ n =>
        simp only [dropBytes] at h
        split at h
        · obtain ⟨front, rfl, hlen⟩ := ih h
          exact ⟨c :: front, rfl, by simp only [byteLength_cons]; omega⟩
        · contradiction
  · rintro ⟨front, rfl, rfl⟩
    exact dropBytes_byteLength_append front rest

/-- Cutting off `m + n` bytes is cutting off `m` and then `n`, where the first cut is possible. -/
theorem dropBytes_add {m n : Nat} {cs rest : List Char} (h : dropBytes m cs = some rest) :
    dropBytes (m + n) cs = dropBytes n rest := by
  obtain ⟨front, rfl, rfl⟩ := dropBytes_eq_some_iff.1 h
  clear h
  induction front with
  | nil => simp
  | cons c front ih =>
    rw [byteLength_cons, List.cons_append, Nat.add_assoc, dropBytes_utf8Size_add, ih]

end Ebnf.Text
