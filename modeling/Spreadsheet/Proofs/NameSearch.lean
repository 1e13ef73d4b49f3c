import Spreadsheet.Proofs.Edit
import Spreadsheet.Proofs.FreshName
import Spreadsheet.Sheet.Script
import Spreadsheet.Word

namespace Spreadsheet

namespace Sheet

structure NameSearch where
  name : String
  counter : Nat

namespace NameSearch

def limit : Nat := Nat.pow 2 31 - 1

def start : NameSearch := ⟨"New Column", 1⟩

def next? (s : NameSearch) : Option NameSearch :=
  if s.counter < limit then some ⟨"New Column " ++ s.counter.repr, s.counter + 1⟩ else none

/-- From `s` on, the search tries `names` and ends with the last of them, the first that is not taken. -/
inductive Tries (taken : Array String) : NameSearch → List String → Prop
  | found {s : NameSearch} (h : s.name ∉ taken) : Tries taken s [s.name]
  | next {s s' : NameSearch} {names : List String} (h : s.name ∈ taken) (hnext : s.next? = some s')
      (hrest : Tries taken s' names) : Tries taken s (s.name :: names)

variable {taken : Array String} {s : NameSearch} {names names' : List String}

theorem Tries.unique (h : Tries taken s names) (h' : Tries taken s names') : names = names' := by
  induction h generalizing names' with
  | found hfree =>
    cases h' with
    | found => rfl
    | next htaken => exact absurd htaken hfree
  | next htaken hnext _ ih =>
    cases h' with
    | found hfree => exact absurd htaken hfree
    | next _ hnext' hrest' =>
      cases hnext.symm.trans hnext'
      rw [ih hrest']

theorem next?_candidate {n : Nat} (h : n + 1 < limit) :
    next? ⟨candidate n, n + 1⟩ = some ⟨candidate (n + 1), n + 2⟩ := if_pos h

theorem tries_candidates {n d : Nat} (htaken : ∀ j < d, candidate (n + j) ∈ taken)
    (hfree : candidate (n + d) ∉ taken) (hlimit : n + d < limit) :
    Tries taken ⟨candidate n, n + 1⟩ ((List.range' n (d + 1)).map candidate) := by
  induction d generalizing n with
  | zero => exact .found hfree
  | succ d ih =>
    refine .next (htaken 0 (Nat.succ_pos d)) (next?_candidate (by omega)) (ih ?_ ?_ (by omega))
    · intro j hj
      rw [Nat.add_right_comm]
      exact htaken (j + 1) (Nat.succ_lt_succ hj)
    · rwa [Nat.add_right_comm]

end NameSearch

/-- The search for the name of an inserted column ends with the first candidate that is no column, after one
candidate more than there are columns at most, and that is what the new column is called. -/
theorem insertColumn_finds_first_free (s : Sheet) (after : Nat)
    (hcolumns : s.columns.size < NameSearch.limit) (hafter : after < Address.limit) :
    ∃ k ≤ s.columns.size,
      (∀ tried, NameSearch.Tries s.columns .start tried ↔
        tried = (List.range (k + 1)).map candidate) ∧
      candidate k ∉ s.columns ∧ (∀ j < k, candidate j ∈ s.columns) ∧
      ∃ position t, Word.add? after 1 = some position ∧
        s.apply (.insertColumn after) = .ok (t, .name (candidate k)) ∧
        t.columns.toList =
          s.columns.toList.insertIdx (min position s.columns.size) (candidate k) := by
  obtain ⟨k, hk, hname, hbefore, hfree⟩ := s.exists_freshName_eq
  have htries : NameSearch.Tries s.columns .start ((List.range (k + 1)).map candidate) := by
    rw [List.range_eq_range']
    exact NameSearch.tries_candidates (n := 0) (by simpa using hbefore) (by simpa using hfree)
      (by omega)
  refine ⟨k, hk, fun tried => ⟨fun h => h.unique htries, fun h => h ▸ htries⟩, hfree, hbefore,
    after + 1, s.insertColumn after, if_pos hafter, by rw [← hname]; rfl, ?_⟩
  rw [← hname]
  exact columns_withColumn (Nat.min_le_right _ _) s.freshName

theorem insertColumn_finds_first_free_repeated :
    (ofColumns "Sheet" ["New Column", "A", "New Column"]).columns.size < NameSearch.limit ∧
      1 < Address.limit ∧
      NameSearch.Tries #["New Column", "A", "New Column"] .start ["New Column", "New Column 1"] ∧
      ∃ t, (ofColumns "Sheet" ["New Column", "A", "New Column"]).apply (.insertColumn 1) =
          .ok (t, .name "New Column 1") ∧
        t.columns.toList = ["New Column", "A", "New Column 1", "New Column"] := by
  have hcolumns : (ofColumns "Sheet" ["New Column", "A", "New Column"]).columns.size <
      NameSearch.limit := by decide
  have hafter : 1 < Address.limit := by decide
  obtain ⟨k, -, htries, hfree, hbefore, position, t, hposition, ht, hinserted⟩ :=
    insertColumn_finds_first_free _ 1 hcolumns hafter
  have hk : k = 1 := by
    match k with
    | 0 => exact absurd (by decide +kernel) hfree
    | 1 => rfl
    | k + 2 => exact absurd (hbefore 1 (by omega)) (by decide +kernel)
  subst hk
  cases hposition
  exact ⟨hcolumns, hafter, (htries _).2 (by decide), t, ht, hinserted⟩

end Sheet

end Spreadsheet
