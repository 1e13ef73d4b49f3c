import Spreadsheet.Proofs.InPlace
import Spreadsheet.Proofs.RepeatedNames
import Spreadsheet.Proofs.Seek

namespace Spreadsheet

theorem exists_map_eq_error_iff {ε α β : Type} {f : α → β} {x : Except ε α} :
    (∃ e, x.map f = .error e) ↔ ∃ e, x = .error e := by
  cases x <;> simp [Except.map]

def Edit.Refused (s : Sheet) : Edit → Prop
  | .insertRow index => s.rows.size < index
  | .deleteRow index => s.rows.size ≤ index
  | .addColumn name => Text.trim name = "" ∨ name ∈ s.columns
  | .renameColumn old new =>
    old ∉ s.columns ∨ (old ≠ new ∧ (Text.trim new = "" ∨ new ∈ s.columns))
  | .deleteColumn name => name ∉ s.columns
  | .setCell a _ => s.rows.size ≤ a.row ∨ s.columns.size ≤ a.col
  | .setCellRef reference _ | .setInput reference _ => ∃ e, s.resolve reference = .error e
  | .seekGoal settings target goal changing =>
    ∃ e, s.seek settings target goal changing = .error e
  | .addRow | .insertColumn _ | .clearRange _ | .normalize | .addWatch _ | .removeWatch _ => False

namespace Sheet

variable {s : Sheet}

theorem exists_insertRow_eq_error_iff {index : Nat} :
    (∃ e, s.insertRow index = .error e) ↔ s.rows.size < index := by
  rw [insertRow]
  split <;> simp <;> omega

theorem exists_deleteRow_eq_error_iff {index : Nat} :
    (∃ e, s.deleteRow index = .error e) ↔ s.rows.size ≤ index := by
  rw [deleteRow]
  split <;> simp <;> omega

theorem exists_checkName_eq_error_iff {name : String} :
    (∃ e, s.checkName name = .error e) ↔ Text.trim name = "" ∨ name ∈ s.columns := by
  rw [checkName]
  split
  · next h => simp [h]
  · next h => split <;> simp [*]

theorem exists_addColumn_eq_error_iff {name : String} :
    (∃ e, s.addColumn name = .error e) ↔ Text.trim name = "" ∨ name ∈ s.columns := by
  rw [← exists_checkName_eq_error_iff, addColumn]
  cases s.checkName name <;> simp

theorem columnIndex?_eq_none_iff {name : String} : s.columnIndex? name = none ↔ name ∉ s.columns := by
  simp [columnIndex?]

theorem exists_renameColumn_eq_error_iff {old new : String} :
    (∃ e, s.renameColumn old new = .error e) ↔
      old ∉ s.columns ∨ (old ≠ new ∧ (Text.trim new = "" ∨ new ∈ s.columns)) := by
  rw [← columnIndex?_eq_none_iff, ← exists_checkName_eq_error_iff, renameColumn]
  cases s.columnIndex? old with
  | none => simp
  | some index =>
    by_cases hsame : old = new
    · simp [hsame]
    · cases s.checkName new <;> simp [hsame]

theorem exists_deleteColumn_eq_error_iff {name : String} :
    (∃ e, s.deleteColumn name = .error e) ↔ name ∉ s.columns := by
  rw [← columnIndex?_eq_none_iff, deleteColumn]
  cases s.columnIndex? name <;> simp

theorem exists_setCell_eq_error_iff {a : Address} {content : Content} :
    (∃ e, s.setCell a content = .error e) ↔ s.rows.size ≤ a.row ∨ s.columns.size ≤ a.col := by
  have hbounds := Grid.inBounds_eq_true_iff (g := s.grid) (a := a)
  rw [Table.grid_rowCount, Table.grid_colCount] at hbounds
  by_cases h : s.grid.inBounds a = true
  · obtain ⟨t, ht⟩ := exists_setCell_eq_ok h content
    have := hbounds.1 h
    simp only [ht, reduceCtorEq, exists_false, false_iff]
    omega
  · have hnone : s.set? a content = none := by
      rw [Option.eq_none_iff_forall_ne_some]
      exact fun u hu => h (Table.exists_set?_eq_some_iff.1 ⟨u, hu⟩)
    have := mt hbounds.2 h
    simp only [setCell, hnone, Except.error.injEq, exists_eq', true_iff]
    omega

theorem exists_setCellRef_eq_error_iff {reference : String} {content : Content} :
    (∃ e, s.setCellRef reference content = .error e) ↔ ∃ e, s.resolve reference = .error e := by
  rw [setCellRef]
  cases h : s.resolve reference with
  | error e => simp
  | ok a =>
    obtain ⟨t, ht⟩ := exists_setCell_eq_ok (inBounds_of_resolve h) content
    simp [ht, Except.map]

theorem exists_seekGoal_eq_error_iff {settings : Settings} {target changing : String}
    {goal : Binary64} : (∃ e, s.seekGoal settings target goal changing = .error e) ↔
      ∃ e, s.seek settings target goal changing = .error e := by
  cases h : s.seek settings target goal changing with
  | error e => simp [seekGoal, h]
  | ok x =>
    obtain ⟨t, ht⟩ := exists_seekGoal_eq_ok h
    simp [ht]

theorem exists_apply_eq_error_iff {e : Edit} : (∃ err, s.apply e = .error err) ↔ e.Refused s := by
  cases e with
  | addRow => simp [apply, Edit.Refused]
  | insertRow index => exact exists_map_eq_error_iff.trans exists_insertRow_eq_error_iff
  | deleteRow index => exact exists_map_eq_error_iff.trans exists_deleteRow_eq_error_iff
  | addColumn name => exact exists_map_eq_error_iff.trans exists_addColumn_eq_error_iff
  | insertColumn after => simp [apply, Edit.Refused]
  | renameColumn old new => exact exists_map_eq_error_iff.trans exists_renameColumn_eq_error_iff
  | deleteColumn name => exact exists_map_eq_error_iff.trans exists_deleteColumn_eq_error_iff
  | setCell a content => exact exists_map_eq_error_iff.trans exists_setCell_eq_error_iff
  | setCellRef reference content =>
    exact exists_map_eq_error_iff.trans exists_setCellRef_eq_error_iff
  | setInput reference input => exact exists_map_eq_error_iff.trans exists_setCellRef_eq_error_iff
  | clearRange r => simp [apply, Edit.Refused]
  | seekGoal settings target goal changing =>
    exact exists_map_eq_error_iff.trans exists_seekGoal_eq_error_iff
  | normalize => simp [apply, Edit.Refused]
  | addWatch reference => simp [apply, Edit.Refused]
  | removeWatch reference => simp [apply, Edit.Refused]

end Sheet

namespace InPlace

/-- Carried out in place on any sheet whatever, an edit fails if and only if the sheet refuses it, and
then leaves the sheet just as it was. -/
theorem perform_fails_iff (s : Sheet) (e : Edit) :
    ((∃ err t, (perform e).run s = .error err t) ↔ e.Refused s) ∧
    ∀ err t, (perform e).run s = .error err t → t = s := by
  rw [run_perform, ← Sheet.exists_apply_eq_error_iff]
  cases s.apply e with
  | ok r => simp [outcome]
  | error err => simp [outcome, eq_comm]

theorem perform_fails_iff_orphaned :
    (∃ err, (perform (.renameColumn "Price" " ")).run Sheet.orphaned = .error err Sheet.orphaned) ∧
    ∃ err, (perform (.setInput "A2" "5")).run Sheet.orphaned = .error err Sheet.orphaned := by
  constructor
  · obtain ⟨err, t, h⟩ := (perform_fails_iff Sheet.orphaned (.renameColumn "Price" " ")).1.2
      (.inr ⟨by decide, .inl (by decide +kernel)⟩)
    exact ⟨err, (perform_fails_iff _ _).2 err t h ▸ h⟩
  · obtain ⟨err, t, h⟩ := (perform_fails_iff Sheet.orphaned (.setInput "A2" "5")).1.2
      ⟨.outOfBounds ⟨0, 1⟩, by decide +kernel⟩
    exact ⟨err, (perform_fails_iff _ _).2 err t h ▸ h⟩

end InPlace

end Spreadsheet
