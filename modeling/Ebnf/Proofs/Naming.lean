import Ebnf.Build.Naming

/-!
# Names given to properties differ

Naming keeps a name that is asked for once and numbers the others, so two things could go wrong: a
number could make a name that someone asked for, or one that was made before.

* `numbered_injective`: different numbers make different names;
* `numbered_freeIndex_not_mem`: the number that is picked makes a name not yet taken;
* `nodup_distinctNames`: no name is given out twice.
-/

namespace Ebnf.Build

/-! ## 1. Numbers -/

/-- Different numbers make different names. -/
theorem numbered_injective {name : Name} {i j : Nat} (h : numbered name i = numbered name j) :
    i = j := by
  have hchars : (toString i).toList = (toString j).toList := by
    have h' := congrArg String.toList h
    simp only [numbered, String.toList_append] at h'
    exact List.append_cancel_left h'
  rw [Nat.toString_eq_repr, Nat.toString_eq_repr, Nat.toList_repr, Nat.toList_repr] at hchars
  have hread := congrArg (fun cs => Nat.ofDigitChars 10 cs 0) hchars
  simpa only [Nat.ofDigitChars_ten_toDigits] using hread

/-- The search for a number only goes up. -/
theorem le_freeIndex (name : Name) (taken : List Name) (i : Nat) : i ≤ freeIndex name taken i := by
  fun_induction freeIndex name taken i with
  | case1 taken i _ ih => omega
  | case2 taken i _ => exact Nat.le_refl i

/-- The number that is picked makes a name not yet taken. -/
theorem numbered_freeIndex_not_mem (name : Name) (taken : List Name) (i : Nat) :
    numbered name (freeIndex name taken i) ∉ taken := by
  fun_induction freeIndex name taken i with
  | case1 taken i _ ih =>
    intro hmem
    -- the name of `i` was crossed off, but the number picked later makes another one
    have hle := le_freeIndex name (taken.erase (numbered name i)) (i + 1)
    have hne : numbered name (freeIndex name (taken.erase (numbered name i)) (i + 1)) ≠
        numbered name i := by
      intro heq
      have := numbered_injective heq
      omega
    exact ih ((List.mem_erase_of_ne hne).2 hmem)
  | case2 taken i hfree => exact hfree

/-! ## 2. Names -/

/-- The names given out differ from each other, and from those taken before, except that a name
    asked for once is given to the one who asked for it. -/
theorem nodup_assignNames {all taken rest : List Name} (next : List (Name × Nat))
    (htaken : ∀ n ∈ rest, all.count n ≤ 1 → n ∈ taken)
    (honce : ∀ n, all.count n ≤ 1 → rest.count n ≤ 1) :
    (assignNames all taken next rest).Nodup ∧
      ∀ n ∈ assignNames all taken next rest, n ∈ taken → n ∈ rest ∧ all.count n ≤ 1 := by
  induction rest generalizing taken next with
  | nil => exact ⟨List.nodup_nil, fun n hn => absurd hn List.not_mem_nil⟩
  | cons name rest ih =>
    have honce' : ∀ n, all.count n ≤ 1 → rest.count n ≤ 1 := fun n hn =>
      Nat.le_trans (List.count_le_count_cons) (honce n hn)
    unfold assignNames
    split
    · next hcount =>
      have htaken' : ∀ n ∈ rest, all.count n ≤ 1 → n ∈ name :: taken := fun n hn h =>
        List.mem_cons_of_mem _ (htaken n (List.mem_cons_of_mem _ hn) h)
      obtain ⟨hnodup, hfresh⟩ := ih next htaken' honce'
      have hname : name ∉ rest := by
        intro hmem
        have hpos := List.count_pos_iff.2 hmem
        have hle := honce name hcount
        rw [List.count_cons_self] at hle
        omega
      refine ⟨List.nodup_cons.2 ⟨fun hmem => ?_, hnodup⟩, fun n hn hnt => ?_⟩
      · exact hname (hfresh name hmem List.mem_cons_self).1
      · rcases List.mem_cons.1 hn with rfl | hn
        · exact ⟨List.mem_cons_self, hcount⟩
        · obtain ⟨hmem, h⟩ := hfresh n hn (List.mem_cons_of_mem _ hnt)
          exact ⟨List.mem_cons_of_mem _ hmem, h⟩
    · next hcount =>
      have hnew := numbered_freeIndex_not_mem name taken ((next.lookup name).getD 0)
      generalize freeIndex name taken ((next.lookup name).getD 0) = i at hnew ⊢
      have htaken' : ∀ n ∈ rest, all.count n ≤ 1 → n ∈ numbered name i :: taken := fun n hn h =>
        List.mem_cons_of_mem _ (htaken n (List.mem_cons_of_mem _ hn) h)
      obtain ⟨hnodup, hfresh⟩ := ih ((name, i + 1) :: next) htaken' honce'
      refine ⟨List.nodup_cons.2 ⟨fun hmem => ?_, hnodup⟩, fun n hn hnt => ?_⟩
      · obtain ⟨hrest, h⟩ := hfresh _ hmem List.mem_cons_self
        exact hnew (htaken _ (List.mem_cons_of_mem _ hrest) h)
      · rcases List.mem_cons.1 hn with rfl | hn
        · exact absurd hnt hnew
        · obtain ⟨hmem, h⟩ := hfresh n hn (List.mem_cons_of_mem _ hnt)
          exact ⟨List.mem_cons_of_mem _ hmem, h⟩

/-- No name is given out twice. -/
theorem nodup_distinctNames (names : List Name) : (distinctNames names).Nodup := by
  refine (nodup_assignNames [] (fun n hn h => ?_) fun n h => h).1
  exact List.mem_filter.2 ⟨hn, by simpa using h⟩

end Ebnf.Build
