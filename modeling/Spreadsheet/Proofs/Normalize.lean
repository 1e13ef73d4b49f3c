import Spreadsheet.Proofs.Dependency
import Spreadsheet.Proofs.Keys
import Spreadsheet.Sheet.Statistics

namespace Spreadsheet

namespace Grid

variable {g g' : Grid}

theorem Agree.of_filled (hrow : g.rowCount = g'.rowCount) (hcol : g.colCount = g'.colCount)
    (hcell : ∀ a, g'.cell a = g.cell a ∨ (g.cell a = none ∧ g'.cell a = some .empty)) :
    Agree (fun _ => True) g g' where
  rowCount := hrow
  colCount := hcol
  leadingNumber? a _ := by
    obtain h | ⟨h, h'⟩ := hcell a
    · simp only [Grid.leadingNumber?, h]
    · simp only [Grid.leadingNumber?, h, h']
      rfl
  rawText a _ := by
    obtain h | ⟨h, h'⟩ := hcell a
    · simp only [Grid.rawText, h]
    · simp only [Grid.rawText, h, h']
      rfl
  found a _ := by
    obtain h | ⟨h, h'⟩ := hcell a
    · simp only [Grid.found, h]
    · simp only [Grid.found, h, h']
      rfl

theorem Agree.evaluate_eq (h : Agree (fun _ => True) g g') (c : Content) :
    g.evaluate c = g'.evaluate c := by
  have hresolve : ∀ a, True → g.referenceValue a = g'.referenceValue a :=
    fun a _ => h.referenceValue_eq trivial
  exact evaluate_congr fun _ e _ _ =>
    Expr.eval_eq h hresolve (fun _ _ => trivial) fun a _ => h.found a trivial

end Grid

namespace Expr

variable {g g' : Grid}

mutual

theorem references_eq (h : ∀ r, g.cellsIn r = g'.cellsIn r) (e : Expr) :
    e.references g = e.references g' := by
  match e with
  | .number n => rfl
  | .text s => rfl
  | .cell a => rfl
  | .range r => simp only [references, h]
  | .neg e => simp only [references, references_eq h e]
  | .binary op l r => simp only [references, references_eq h l, references_eq h r]
  | .call f args => simp only [references, argReferences_eq h args]

theorem argReferences_eq (h : ∀ r, g.cellsIn r = g'.cellsIn r) (es : List Expr) :
    argReferences g es = argReferences g' es := by
  match es with
  | [] => rfl
  | e :: es => simp only [argReferences, references_eq h e, argReferences_eq h es]

end

end Expr

namespace Sheet

variable (s : Sheet)

theorem normalizeRow_normalizeRow (columns : Array String) (row : Row) :
    normalizeRow columns (normalizeRow columns row) = normalizeRow columns row := by
  apply Std.ExtTreeMap.ext_getElem?
  intro name
  simp only [getElem?_normalizeRow]
  split <;> simp

theorem normalize_normalize : s.normalize.normalize = s.normalize := by
  simp only [normalize, Array.map_map]
  congr 1
  congr 1
  apply Array.map_congr_left
  intro row _
  exact normalizeRow_normalizeRow s.columns row

theorem cell?_normalize (a : Address) :
    s.normalize.cell? a = s.cell? a ∨ (s.cell? a = none ∧ s.normalize.cell? a = some .empty) := by
  cases hkey : s.columns[a.col]? with
  | none => simp [Table.cell?, normalize, hkey]
  | some key =>
    cases hrow : s.rows[a.row]? with
    | none => simp [Table.cell?, normalize, hkey, hrow]
    | some row =>
      have hrow' : s.normalize.rows[a.row]? = some (normalizeRow s.columns row) := by
        simp [normalize, hrow]
      have hcell : s.normalize.cell? a = (normalizeRow s.columns row)[key]? :=
        Table.cell?_eq hkey hrow'
      rw [hcell, Table.cell?_eq hkey hrow, getElem?_normalizeRow,
        if_pos (Array.mem_of_getElem? hkey)]
      cases row[key]? with
      | none => exact .inr ⟨rfl, rfl⟩
      | some c => exact .inl rfl

theorem agree_normalize : Grid.Agree (fun _ => True) s.grid s.normalize.grid :=
  Grid.Agree.of_filled (by simp [normalize]) (by simp [normalize]) s.cell?_normalize

theorem evaluate_normalize (a : Address) : s.normalize.evaluate a = s.evaluate a := by
  simp only [evaluate, ← s.agree_normalize.evaluate_eq]
  obtain h | ⟨h, h'⟩ := s.cell?_normalize a
  · simp only [h]
  · simp only [h, h']
    rfl

theorem formula?_normalize (a : Address) : s.normalize.formula? a = s.formula? a := by
  obtain h | ⟨h, h'⟩ := s.cell?_normalize a
  · simp only [formula?, h]
  · simp only [formula?, h, h']
    rfl

theorem resolve_normalize (reference : String) :
    s.normalize.resolve reference = s.resolve reference := by
  simp only [resolve, s.agree_normalize.inBounds_eq]

theorem watchEntry_normalize (reference : String) :
    s.normalize.watchEntry reference = s.watchEntry reference := by
  simp only [watchEntry, resolve_normalize, evaluate_normalize]
  split
  · rfl
  · next a _ =>
    obtain h | ⟨h, h'⟩ := s.cell?_normalize a
    · rw [h]
    · rw [h, h']
      rfl

theorem selectionStats_normalize (r : Range) : s.normalize.selectionStats r = s.selectionStats r := by
  have hvalue : s.normalize.evaluate = s.evaluate := funext s.evaluate_normalize
  simp only [selectionStats, shownValues, hvalue, ← s.agree_normalize.cellsIn_eq]

theorem columnNumbers_normalize {name : String} (h : name ∈ s.columns) :
    s.normalize.columnNumbers name = s.columnNumbers name := by
  simp only [columnNumbers, normalize, Array.toList_map, List.filterMap_map]
  apply List.filterMap_congr
  intro row _
  simp only [Function.comp_apply, getElem?_normalizeRow, if_pos h]
  cases row[name]? <;> rfl

theorem columnExtents_normalize : s.normalize.columnExtents = s.columnExtents := by
  apply List.filterMap_congr
  intro name hname
  simp only [columnExtent?, columnNumbers_normalize s (Array.mem_toList_iff.1 hname)]

/-- Normalizing a sheet makes the keys of its rows match the columns, keeps all that is stored in them
and cannot be told by anything that reads the sheet. -/
theorem normalize_invisible (s : Sheet) :
    (s.normalize.KeysMatch ∧ s.normalize.name = s.name ∧ s.normalize.columns = s.columns ∧
      s.normalize.rows.size = s.rows.size ∧ s.normalize.watched = s.watched) ∧
    (∀ (i : Nat) (name : String), s.normalize.rows[i]?.map (·[name]?) = s.rows[i]?.map fun row =>
      if name ∈ s.columns then some (row[name]?.getD .empty) else none) ∧
    s.normalize.normalize = s.normalize ∧
    (∀ a, s.normalize.evaluate a = s.evaluate a) ∧
    (∀ input, s.normalize.evaluateInput input = s.evaluateInput input) ∧
    (∀ a, s.normalize.precedents a = s.precedents a) ∧
    (∀ a cell, s.normalize.readsCell a cell = s.readsCell a cell) ∧
    (∀ r, s.normalize.selectionStats r = s.selectionStats r) ∧
    s.normalize.columnExtents = s.columnExtents ∧
    s.normalize.watchEntries = s.watchEntries := by
  refine ⟨⟨Table.KeysMatch.normalize s, rfl, rfl, by simp [normalize], rfl⟩, ?_,
    s.normalize_normalize, s.evaluate_normalize, ?_, ?_, ?_, s.selectionStats_normalize,
    s.columnExtents_normalize, ?_⟩
  · intro i name
    simp only [normalize, Array.getElem?_map, Option.map_map, Function.comp_def,
      getElem?_normalizeRow]
  · intro input
    exact (s.agree_normalize.evaluate_eq _).symm
  · intro a
    simp only [precedents, formula?_normalize]
    split
    · exact (Expr.references_eq s.agree_normalize.cellsIn_eq _).symm
    · rfl
  · intro a cell
    simp only [readsCell, formula?_normalize]
  · exact List.map_congr_left fun reference _ => s.watchEntry_normalize reference

end Sheet

end Spreadsheet
