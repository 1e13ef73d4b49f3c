import Mathlib.Data.List.Nodup
import Mathlib.Logic.Function.Basic
import Spreadsheet.Sheet.Edit

namespace Spreadsheet.Sheet

theorem repr_injective : Function.Injective Nat.repr := by
  intro m n h
  simpa using congrArg (fun s => Nat.ofDigitChars 10 s.toList 0) h

theorem candidate_zero_ne (n : Nat) : candidate 0 ≠ candidate (n + 1) := by
  intro h
  have hlen := congrArg String.length h
  rw [candidate, candidate, String.length_append, show "New Column".length = 10 by decide,
    show "New Column ".length = 11 by decide] at hlen
  omega

theorem candidate_injective : Function.Injective candidate := by
  intro m n h
  cases m with
  | zero =>
    cases n with
    | zero => rfl
    | succ n => exact absurd h (candidate_zero_ne n)
  | succ m =>
    cases n with
    | zero => exact absurd h.symm (candidate_zero_ne m)
    | succ n => exact repr_injective (by simpa [candidate] using h)

theorem exists_firstFree_eq (taken : Array String) (n fuel : Nat) :
    ∃ k ≤ fuel, firstFree taken n fuel = candidate (n + k) ∧
      (∀ j < k, candidate (n + j) ∈ taken) ∧ (k < fuel → candidate (n + k) ∉ taken) := by
  induction fuel generalizing n with
  | zero => exact ⟨0, Nat.le_refl 0, rfl, by simp, by simp⟩
  | succ fuel ih =>
    by_cases h : candidate n ∈ taken
    · obtain ⟨k, hk, heq, hbefore, hfree⟩ := ih (n + 1)
      refine ⟨k + 1, by omega, ?_, ?_, ?_⟩
      · rw [firstFree, if_pos h, heq, Nat.add_right_comm, Nat.add_assoc]
      · intro j hj
        cases j with
        | zero => exact h
        | succ j =>
          rw [Nat.add_comm j, ← Nat.add_assoc]
          exact hbefore j (by omega)
      · intro hlt
        rw [Nat.add_comm k, ← Nat.add_assoc]
        exact hfree (by omega)
    · exact ⟨0, Nat.zero_le _, by rw [firstFree, if_neg h]; rfl, by simp, fun _ => h⟩

theorem exists_candidate_not_mem (taken : Array String) :
    ∃ j ≤ taken.size, candidate j ∉ taken := by
  by_contra! h
  have hsub : (List.range (taken.size + 1)).map candidate ⊆ taken.toList := by
    intro name hname
    obtain ⟨j, hj, rfl⟩ := List.mem_map.1 hname
    exact Array.mem_toList_iff.2 (h j (by simpa [Nat.lt_succ_iff] using hj))
-- There are more candidates than columns.
  have hlen := (List.nodup_range.map candidate_injective).length_le_of_subset hsub
  simp only [List.length_map, List.length_range, Array.length_toList] at hlen
  omega

theorem exists_freshName_eq (s : Sheet) :
    ∃ k ≤ s.columns.size, s.freshName = candidate k ∧ (∀ j < k, candidate j ∈ s.columns) ∧
      candidate k ∉ s.columns := by
  obtain ⟨k, hk, heq, hbefore, hfree⟩ := exists_firstFree_eq s.columns 0 s.columns.size
  simp only [Nat.zero_add] at heq hbefore hfree
  refine ⟨k, hk, heq, hbefore, ?_⟩
  obtain ⟨j, hj, hnot⟩ := exists_candidate_not_mem s.columns
  by_cases hlt : k < s.columns.size
  · exact hfree hlt
  · have hkj : k = j := by
      by_contra hne
      exact hnot (hbefore j (by omega))
    rwa [hkj]

theorem freshName_not_mem (s : Sheet) : s.freshName ∉ s.columns := by
  obtain ⟨k, -, heq, -, hfree⟩ := s.exists_freshName_eq
  rwa [heq]

end Spreadsheet.Sheet
