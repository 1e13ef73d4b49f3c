import Spreadsheet.Proofs.Edit
import Spreadsheet.Proofs.FreshName
import Spreadsheet.Sheet.Script

namespace Spreadsheet

def Edit.removedKey? : Edit → Option String
  | .renameColumn old new => if old = new then none else some old
  | .deleteColumn name => some name
  | _ => none

namespace Sheet

variable {s t : Sheet}

/-- A change of a sheet, told with the name whose cells it takes out of every row. -/
inductive Change (s : Sheet) : Option String → Sheet → Prop
  | same {t : Sheet} (h : t.toTable = s.toTable) : Change s none t
  | addRow : Change s none s.addRow
  | insertRow {index : Nat} {t : Sheet} (h : s.insertRow index = .ok t) : Change s none t
  | deleteRow {index : Nat} {t : Sheet} (h : s.deleteRow index = .ok t) : Change s none t
  | withColumn {position : Nat} {name : String} (hp : position ≤ s.columns.size)
      (hname : name ∉ s.columns) : Change s none (s.withColumn position name)
  | renameColumn {old new : String} {t : Sheet} (hne : old ≠ new)
      (h : s.renameColumn old new = .ok t) : Change s (some old) t
  | deleteColumn {name : String} {t : Sheet} (h : s.deleteColumn name = .ok t) :
      Change s (some name) t
  | setCell {a : Address} {content : Content} {t : Sheet} (h : s.setCell a content = .ok t) :
      Change s none t
  | clearRange (r : Range) : Change s none (s.clearRange r)
  | normalize : Change s none s.normalize

theorem Change.nodup_columns {removed : Option String} (ht : s.Change removed t)
    (h : s.columns.toList.Nodup) : t.columns.toList.Nodup := by
  cases ht with
  | same hsame => rwa [hsame]
  | addRow => exact h
  | insertRow hrow =>
    obtain ⟨hi, rfl⟩ := insertRow_eq_ok hrow
    exact h
  | deleteRow hrow =>
    obtain ⟨hi, rfl⟩ := deleteRow_eq_ok hrow
    exact h
  | withColumn hp hname =>
    rw [(columns_withColumn_perm hp _).nodup_iff, List.nodup_cons, Array.mem_toList_iff]
    exact ⟨hname, h⟩
  | renameColumn hne hcol =>
    obtain ⟨-, hsame, -⟩ | ⟨hnew, before, after, hcols, -, rfl⟩ := renameColumn_eq_ok hcol
    · exact absurd hsame hne
    rw [← Array.mem_toList_iff, hcols] at hnew
    rw [hcols, List.nodup_middle, List.nodup_cons] at h
    rw [List.nodup_middle, List.nodup_cons]
    exact ⟨fun hmem => hnew (by simp_all), h.2⟩
  | deleteColumn hcol =>
    obtain ⟨before, after, hcols, -, rfl⟩ := deleteColumn_eq_ok hcol
    rw [hcols, List.nodup_middle, List.nodup_cons] at h
    exact h.2
  | setCell hcell => rwa [columns_of_setCell hcell]
  | clearRange r => rwa [columns_clearRange]
  | normalize => exact h

theorem toTable_of_addWatch? {reference : String} (h : s.addWatch? reference = some t) :
    t.toTable = s.toTable := by
  simp only [addWatch?] at h
  split at h
  · cases h
  · cases h; rfl

theorem toTable_of_removeWatch? {reference : String} (h : s.removeWatch? reference = some t) :
    t.toTable = s.toTable := by
  simp only [removeWatch?] at h
  split at h
  · cases h; rfl
  · cases h

theorem change_setCellRef {reference : String} {content : Content} {a : Address}
    (h : s.setCellRef reference content = .ok (t, a)) : s.Change none t :=
  .setCell (setCellRef_eq_ok h).2

theorem change_renameColumn {old new : String} (h : s.renameColumn old new = .ok t) :
    s.Change (Edit.renameColumn old new).removedKey? t := by
  by_cases hsame : old = new
  · obtain ⟨-, -, rfl⟩ | ⟨hnew, before, after, hcols, -⟩ := renameColumn_eq_ok h
    · simpa [Edit.removedKey?, hsame] using Change.same rfl
    · rw [← Array.mem_toList_iff, hcols, ← hsame] at hnew
      simp at hnew
  · simpa [Edit.removedKey?, hsame] using Change.renameColumn hsame h

theorem change_apply {e : Edit} {reply : Reply} (h : s.apply e = .ok (t, reply)) :
    s.Change e.removedKey? t := by
  cases e with
  | addRow => cases h; exact .addRow
  | insertRow index =>
    obtain ⟨u, hu, heq⟩ := exists_of_map_eq_ok h
    cases heq
    exact .insertRow hu
  | deleteRow index =>
    obtain ⟨u, hu, heq⟩ := exists_of_map_eq_ok h
    cases heq
    exact .deleteRow hu
  | addColumn name =>
    obtain ⟨u, hu, heq⟩ := exists_of_map_eq_ok h
    cases heq
    obtain ⟨⟨-, hname⟩, rfl⟩ := addColumn_eq_ok hu
    exact .withColumn (Nat.le_refl _) hname
  | insertColumn after => cases h; exact .withColumn (Nat.min_le_right _ _) s.freshName_not_mem
  | renameColumn old new =>
    obtain ⟨u, hu, heq⟩ := exists_of_map_eq_ok h
    cases heq
    exact change_renameColumn hu
  | deleteColumn name =>
    obtain ⟨u, hu, heq⟩ := exists_of_map_eq_ok h
    cases heq
    exact .deleteColumn hu
  | setCell a content =>
    obtain ⟨u, hu, heq⟩ := exists_of_map_eq_ok h
    cases heq
    exact .setCell hu
  | setCellRef reference content =>
    obtain ⟨⟨u, a⟩, hu, heq⟩ := exists_of_map_eq_ok h
    cases heq
    exact change_setCellRef hu
  | setInput reference input =>
    obtain ⟨⟨u, a⟩, hu, heq⟩ := exists_of_map_eq_ok h
    cases heq
    exact change_setCellRef hu
  | clearRange r => cases h; exact .clearRange r
  | seekGoal settings target goal changing =>
    obtain ⟨⟨u, x⟩, hu, heq⟩ := exists_of_map_eq_ok h
    cases heq
    obtain ⟨-, a, ha⟩ := seekGoal_eq_ok hu
    exact change_setCellRef ha
  | normalize => cases h; exact .normalize
  | addWatch reference =>
    simp only [apply] at h
    split at h
    · next u hu => cases h; exact .same (toTable_of_addWatch? hu)
    · cases h; exact .same rfl
  | removeWatch reference =>
    simp only [apply] at h
    split at h
    · next u hu => cases h; exact .same (toTable_of_removeWatch? hu)
    · cases h; exact .same rfl

end Sheet

end Spreadsheet
