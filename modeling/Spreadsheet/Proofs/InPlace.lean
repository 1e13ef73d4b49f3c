import Spreadsheet.Proofs.Edit
import Spreadsheet.Sheet.InPlace

namespace Spreadsheet.InPlace

variable {s : Sheet}

def outcome {α : Type} (s : Sheet) :
    Except SheetError (Sheet × α) → EStateM.Result SheetError Sheet α
  | .ok (t, a) => .ok a t
  | .error e => .error e s

theorem run_return {α β : Type} {m : Action α} {x : Except SheetError (Sheet × α)}
    (h : m.run s = outcome s x) (f : α → β) :
    (do return f (← m)).run s = outcome s (x.map fun (t, a) => (t, f a)) := by
  rw [EStateM.run_bind, h]
  cases x <;> rfl

theorem run_done {m : Action Unit} {x : Except SheetError Sheet}
    (h : m.run s = outcome s (x.map (·, ()))) :
    (do m; return Reply.done).run s = outcome s (x.map (·, Reply.done)) := by
  rw [EStateM.run_bind, h]
  cases x <;> rfl

theorem run_addRow : addRow.run s = outcome s (.ok (s.addRow, s.rows.size)) := rfl

theorem run_insertRow (index : Nat) :
    (insertRow index).run s = outcome s ((s.insertRow index).map (·, ())) := by
  by_cases h : index ≤ s.rows.size
  · simp [insertRow, Sheet.insertRow, setRows, Array.insertIdxIfInBounds, h, Nat.not_lt.2 h, outcome,
      Except.map]
  · simp [insertRow, Sheet.insertRow, setRows, h, Nat.not_le.1 h, outcome, Except.map]

theorem run_deleteRow (index : Nat) :
    (deleteRow index).run s = outcome s ((s.deleteRow index).map (·, ())) := by
  by_cases h : index < s.rows.size
  · simp [deleteRow, Sheet.deleteRow, setRows, Array.eraseIdxIfInBounds, h, Nat.not_le.2 h, outcome,
      Except.map]
  · simp [deleteRow, Sheet.deleteRow, setRows, h, Nat.not_lt.1 h, outcome, Except.map]

theorem run_checkName (name : String) :
    (checkName name).run s = outcome s ((s.checkName name).map (s, ·)) := by
  simp only [checkName, Sheet.checkName]
  split
  · simp [outcome, Except.map]
  · split <;> simp_all [outcome, Except.map]

theorem run_addColumn (name : String) :
    (addColumn name).run s = outcome s ((s.addColumn name).map (·, s.columns.size)) := by
  rw [addColumn, EStateM.run_bind, run_checkName, Sheet.addColumn]
  cases s.checkName name with
  | error e => rfl
  | ok =>
    have hpush : s.columns.insertIdxIfInBounds s.columns.size name = s.columns.push name := by
      simp [Array.insertIdxIfInBounds]
    simp only [Except.map, outcome, Sheet.withColumn, hpush]
    rfl

theorem run_insertColumn (after : Nat) :
    (insertColumn after).run s = outcome s (.ok (s.insertColumn after, s.freshName)) := rfl

theorem run_findColumn (name : String) :
    (findColumn name).run s = match s.columnIndex? name with
      | some index => .ok index s
      | none => .error (.unknownColumn name) s := by
  simp only [findColumn, EStateM.run_bind, EStateM.run_get]
  cases s.columnIndex? name <;> rfl

theorem run_renameColumn (old new : String) :
    (renameColumn old new).run s = outcome s ((s.renameColumn old new).map (·, ())) := by
  rw [renameColumn, EStateM.run_bind, run_findColumn, Sheet.renameColumn]
  cases s.columnIndex? old with
  | none => rfl
  | some index =>
    by_cases hsame : old = new
    · simp [hsame, outcome, Except.map]
    · simp only [ne_eq, hsame, not_false_eq_true, if_true, if_false, EStateM.run_bind, run_checkName]
      cases s.checkName new <;> rfl

theorem run_deleteColumn (name : String) :
    (deleteColumn name).run s = outcome s ((s.deleteColumn name).map (·, ())) := by
  rw [deleteColumn, EStateM.run_bind, run_findColumn, Sheet.deleteColumn]
  cases s.columnIndex? name <;> rfl

theorem run_setCell (a : Address) (content : Content) :
    (setCell a content).run s = outcome s ((s.setCell a content).map (·, ())) := by
  simp only [setCell, Sheet.setCell, Table.set?, EStateM.run_bind, EStateM.run_get]
  cases s.columns[a.col]? with
  | none => rfl
  | some key => cases s.rows[a.row]? <;> rfl

theorem run_setCellRef (reference : String) (content : Content) :
    (setCellRef reference content).run s = outcome s (s.setCellRef reference content) := by
  rw [setCellRef, Sheet.setCellRef, EStateM.run_bind, EStateM.run_get]
  cases hresolve : s.resolve reference with
  | error e =>
    simp only [hresolve]
    rfl
  | ok a =>
    simp only [hresolve, ofExcept, pure_bind, EStateM.run_bind, run_setCell]
    cases s.setCell a content <;> rfl

theorem run_tryCatch {α : Type} {m : Action α} {handler : SheetError → Action α} :
    (tryCatch m handler).run s = match m.run s with
      | .ok a t => .ok a t
      | .error e t => (handler e).run t := by
  change EStateM.tryCatch m handler s = _
  rw [EStateM.tryCatch, EStateM.run]
  cases m s <;> rfl

theorem run_clearCells (as : List Address) :
    (as.forM fun a => try setCell a .empty catch _ => pure () : Action Unit).run s =
      .ok () (as.foldl (fun s a => match s.setCell a .empty with
        | .ok s => s
        | .error _ => s) s) := by
  induction as generalizing s with
  | nil => rfl
  | cons a as ih =>
    have hset := run_setCell (s := s) a .empty
    rw [List.forM, EStateM.run_bind, List.foldl_cons]
    cases hcell : s.setCell a .empty with
    | ok t =>
      rw [hcell] at hset
      rw [run_tryCatch, hset]
      exact ih
    | error e =>
      rw [hcell] at hset
      rw [run_tryCatch, hset]
      exact ih

theorem run_clearRange (r : Range) :
    (clearRange r).run s = outcome s (.ok (s.clearRange r, ())) :=
  run_clearCells _

theorem run_seekGoal (settings : Settings) (target : String) (goal : Binary64)
    (changing : String) : (seekGoal settings target goal changing).run s =
      outcome s (s.seekGoal settings target goal changing) := by
  rw [seekGoal, Sheet.seekGoal, EStateM.run_bind, EStateM.run_get]
  cases hseek : s.seek settings target goal changing with
  | error e =>
    simp only [hseek]
    rfl
  | ok x =>
    simp only [hseek, ofExcept, Except.mapError, pure_bind, EStateM.run_bind, run_setCellRef]
    cases s.setCellRef changing (.number x) <;> rfl

theorem run_addWatch (reference : String) :
    (addWatch reference).run s =
      .ok (s.addWatch? reference).isSome ((s.addWatch? reference).getD s) := by
  rw [addWatch, EStateM.run_bind, EStateM.run_get, Sheet.addWatch?]
  dsimp only
  split <;> rfl

theorem run_removeWatch (reference : String) :
    (removeWatch reference).run s =
      .ok (s.removeWatch? reference).isSome ((s.removeWatch? reference).getD s) := by
  have hrun : (removeWatch reference).run s = .ok (decide (Sheet.watchKey reference ∈ s.watched))
      { s with watched := s.watched.filter (· != Sheet.watchKey reference) } := rfl
  rw [hrun, Sheet.removeWatch?]
  by_cases h : Sheet.watchKey reference ∈ s.watched
  · simp [h]
  · have hkept : s.watched.filter (· != Sheet.watchKey reference) = s.watched := by
      rw [Array.filter_eq_self]
      intro key hkey
      rw [bne_iff_ne]
      rintro rfl
      exact h hkey
    simp [h, hkept]

theorem run_perform (e : Edit) : (perform e).run s = outcome s (s.apply e) := by
  cases e with
  | addRow => exact run_return run_addRow _
  | insertRow index => exact run_done (run_insertRow index)
  | deleteRow index => exact run_done (run_deleteRow index)
  | addColumn name =>
    rw [Sheet.apply, perform, run_return (run_addColumn name)]
    cases s.addColumn name <;> rfl
  | insertColumn after => exact run_return (run_insertColumn after) _
  | renameColumn old new => exact run_done (run_renameColumn old new)
  | deleteColumn name => exact run_done (run_deleteColumn name)
  | setCell a content => exact run_done (run_setCell a content)
  | setCellRef reference content => exact run_return (run_setCellRef reference content) _
  | setInput reference input => exact run_return (run_setCellRef reference (.ofInput input)) _
  | clearRange r => exact run_return (run_clearRange r) _
  | seekGoal settings target goal changing =>
    exact run_return (run_seekGoal settings target goal changing) _
  | normalize => rfl
  | addWatch reference =>
    rw [perform, EStateM.run_bind, run_addWatch, Sheet.apply]
    cases s.addWatch? reference <;> rfl
  | removeWatch reference =>
    rw [perform, EStateM.run_bind, run_removeWatch, Sheet.apply]
    cases s.removeWatch? reference <;> rfl

end Spreadsheet.InPlace
