import Mathlib.Data.List.Perm.Basic
import Spreadsheet.Proofs.Success
import Spreadsheet.Proofs.Table
import Spreadsheet.Sheet.Edit

namespace Spreadsheet

namespace Sheet

variable {s t : Sheet}

theorem resolve_eq_ok_iff {reference : String} {a : Address} : s.resolve reference = .ok a ↔
    Address.parseTrimmed? reference = some a ∧ s.grid.inBounds a = true := by
  rw [resolve]
  split
  · next h => simp [h]
  · next b h =>
    simp only [h, Option.some.injEq]
    split <;> grind

theorem inBounds_of_resolve {reference : String} {a : Address}
    (h : s.resolve reference = .ok a) : s.grid.inBounds a = true :=
  (resolve_eq_ok_iff.1 h).2

theorem insertRow_eq_ok {index : Nat} (h : s.insertRow index = .ok t) :
    ∃ hi : index ≤ s.rows.size, t = { s with rows := s.rows.insertIdx index s.blankRow hi } := by
  rw [insertRow] at h
  split at h
  · next hi => exact ⟨hi, by cases h; rfl⟩
  · cases h

theorem deleteRow_eq_ok {index : Nat} (h : s.deleteRow index = .ok t) :
    ∃ hi : index < s.rows.size, t = { s with rows := s.rows.eraseIdx index hi } := by
  rw [deleteRow] at h
  split at h
  · next hi => exact ⟨hi, by cases h; rfl⟩
  · cases h

theorem checkName_eq_ok {name : String} (h : s.checkName name = .ok ()) :
    Text.trim name ≠ "" ∧ name ∉ s.columns := by
  rw [checkName] at h
  split at h
  · cases h
  · next hblank =>
    split at h
    · cases h
    · next hnew => exact ⟨hblank, hnew⟩

theorem columns_withColumn {position : Nat} (h : position ≤ s.columns.size) (name : String) :
    (s.withColumn position name).columns.toList = s.columns.toList.insertIdx position name := by
  simp [withColumn, Array.insertIdxIfInBounds, h]

theorem columns_withColumn_perm {position : Nat} (h : position ≤ s.columns.size) (name : String) :
    (s.withColumn position name).columns.toList.Perm (name :: s.columns.toList) := by
  rw [columns_withColumn h]
  exact List.perm_insertIdx name _ (by simpa using h)

theorem addColumn_eq_ok {name : String} (h : s.addColumn name = .ok t) :
    (Text.trim name ≠ "" ∧ name ∉ s.columns) ∧ t = s.withColumn s.columns.size name := by
  rw [addColumn] at h
  split at h
  · cases h
  · next hname => exact ⟨checkName_eq_ok hname, by cases h; rfl⟩

theorem exists_columns_eq {name : String} {index : Nat} (h : s.columnIndex? name = some index) :
    ∃ before after, s.columns.toList = before ++ name :: after ∧ before.length = index ∧
      name ∉ before := by
  have hlist : s.columns.toList.idxOf? name = some index := by
    rw [← List.idxOf?_toArray]
    exact h
  obtain ⟨hlt, hname, hbefore⟩ := List.idxOf?_eq_some_iff.1 hlist
  refine ⟨s.columns.toList.take index, s.columns.toList.drop (index + 1), ?_, ?_, ?_⟩
  · rw [← hname, ← List.drop_eq_getElem_cons hlt, List.take_append_drop]
  · exact List.length_take_of_le (Nat.le_of_lt hlt)
  · intro hmem
    obtain ⟨j, hj, hjname⟩ := List.mem_take_iff_getElem.1 hmem
    exact hbefore j (by omega) hjname

theorem renameColumn_eq_ok {old new : String} (h : s.renameColumn old new = .ok t) :
    (old ∈ s.columns ∧ old = new ∧ t = s) ∨
      (new ∉ s.columns ∧ ∃ before after, s.columns.toList = before ++ old :: after ∧
        old ∉ before ∧ t = { s with
          columns := (before ++ new :: after).toArray
          rows := s.rows.map (renameKey old new) }) := by
  rw [renameColumn] at h
  split at h
  · cases h
  · next index hindex =>
    obtain ⟨before, after, hcols, hlen, hbefore⟩ := exists_columns_eq hindex
    split at h
    · next hsame =>
      refine .inl ⟨?_, hsame, by cases h; rfl⟩
      simp [← Array.mem_toList_iff, hcols]
    · split at h
      · cases h
      · next hname =>
        refine .inr ⟨(checkName_eq_ok hname).2, before, after, hcols, hbefore, ?_⟩
        have hset : s.columns.setIfInBounds index new = (before ++ new :: after).toArray := by
          rw [← Array.toList_inj, Array.toList_setIfInBounds, hcols, ← hlen]
          simp
        cases h
        rw [hset]

theorem deleteColumn_eq_ok {name : String} (h : s.deleteColumn name = .ok t) :
    ∃ before after, s.columns.toList = before ++ name :: after ∧ name ∉ before ∧
      t = { s with
        columns := (before ++ after).toArray
        rows := s.rows.map (·.erase name) } := by
  rw [deleteColumn] at h
  split at h
  · cases h
  · next index hindex =>
    obtain ⟨before, after, hcols, hlen, hbefore⟩ := exists_columns_eq hindex
    refine ⟨before, after, hcols, hbefore, ?_⟩
    have herase : s.columns.eraseIdxIfInBounds index = (before ++ after).toArray := by
      rw [← Array.toList_inj, Array.toList_eraseIdxIfInBounds, hcols, ← hlen]
      simp [List.eraseIdx_append_of_length_le]
    cases h
    rw [herase]

theorem setCell_eq_ok {a : Address} {content : Content} (h : s.setCell a content = .ok t) :
    ∃ u, s.set? a content = some u ∧ t = { s with toTable := u } := by
  rw [setCell] at h
  split at h
  · next u hu => exact ⟨u, hu, by cases h; rfl⟩
  · cases h

theorem exists_setCell_eq_ok {a : Address} (ha : s.grid.inBounds a = true) (content : Content) :
    ∃ t, s.setCell a content = .ok t := by
  obtain ⟨u, hu⟩ : ∃ u, s.set? a content = some u := Table.exists_set?_eq_some_iff.2 ha
  exact ⟨{ s with toTable := u }, by simp [setCell, hu]⟩

theorem cell?_of_setCell {b : Address} {content : Content} (h : s.setCell b content = .ok t)
    (a : Address) : t.cell? a =
      if a.row = b.row ∧ s.columns[a.col]? = s.columns[b.col]? then some content else s.cell? a := by
  obtain ⟨u, hu, rfl⟩ := setCell_eq_ok h
  exact Table.cell?_of_set? hu a

theorem columns_of_setCell {a : Address} {content : Content} (h : s.setCell a content = .ok t) :
    t.columns = s.columns := by
  obtain ⟨u, hu, rfl⟩ := setCell_eq_ok h
  obtain ⟨key, row, -, -, rfl⟩ := Table.set?_eq_some_iff.1 hu
  rfl

theorem clearRange_induction {P : Sheet → Prop}
    (hstep : ∀ {s t a}, P s → s.setCell a .empty = .ok t → P t) (hs : P s) (r : Range) :
    P (s.clearRange r) := by
  rw [clearRange]
  generalize s.grid.cellsIn r = as
  induction as generalizing s with
  | nil => exact hs
  | cons a as ih =>
    rw [List.foldl_cons]
    split
    · next ht => exact ih (hstep hs ht)
    · exact ih hs

theorem columns_clearRange (s : Sheet) (r : Range) : (s.clearRange r).columns = s.columns :=
  clearRange_induction (P := fun t => t.columns = s.columns)
    (fun hcolumns ht => (columns_of_setCell ht).trans hcolumns) rfl r

theorem setCellRef_eq_ok {reference : String} {content : Content} {a : Address}
    (h : s.setCellRef reference content = .ok (t, a)) :
    s.resolve reference = .ok a ∧ s.setCell a content = .ok t := by
  rw [setCellRef] at h
  split at h
  · cases h
  · next b hb =>
    obtain ⟨u, hu, heq⟩ := exists_of_map_eq_ok h
    cases heq
    exact ⟨hb, hu⟩

theorem seekGoal_eq_ok {settings : Settings} {target changing : String} {goal x : Binary64}
    (h : s.seekGoal settings target goal changing = .ok (t, x)) :
    s.seek settings target goal changing = .ok x ∧
      ∃ a, s.setCellRef changing (.number x) = .ok (t, a) := by
  rw [seekGoal] at h
  split at h
  · cases h
  · next y hy =>
    obtain ⟨⟨u, a⟩, hu, heq⟩ := exists_of_map_eq_ok h
    cases heq
    exact ⟨hy, a, hu⟩

end Sheet

end Spreadsheet
