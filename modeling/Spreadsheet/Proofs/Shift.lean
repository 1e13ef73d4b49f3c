import Spreadsheet.Proofs.Refusal

/-! Rows and columns put in and taken out. Cells are stored by the names of their columns and found by
position; where the names differ, an edit of the rows or columns moves the cells behind it by one place
and leaves every cell its content. -/

namespace Spreadsheet

def skip (i n : Nat) : Nat :=
  if n < i then n else n + 1

theorem skip_of_lt {i n : Nat} (h : n < i) : skip i n = n := if_pos h

theorem skip_of_le {i n : Nat} (h : i ≤ n) : skip i n = n + 1 := if_neg (Nat.not_lt.2 h)

theorem getElem?_skip_insertIdx {α : Type} (xs : List α) (i n : Nat) (x : α) :
    (xs.insertIdx i x)[skip i n]? = xs[n]? := by
  rw [List.getElem?_insertIdx]
  obtain h | h := Nat.lt_or_ge n i
  · rw [skip_of_lt h, if_pos h]
  · rw [skip_of_le h, if_neg (by omega), if_neg (by omega), Nat.add_sub_cancel]

theorem getElem?_skip {α : Type} (xs : List α) (i n : Nat) : (xs.eraseIdx i)[n]? = xs[skip i n]? := by
  rw [List.getElem?_eraseIdx, skip]
  split <;> rfl

theorem position_unique {columns : Array String} (hcolumns : columns.toList.Nodup) {p q : Nat}
    {name : String} (hp : columns[p]? = some name) (hq : columns[q]? = some name) : p = q := by
  rw [← Array.getElem?_toList] at hp hq
  exact (List.getElem?_inj (List.getElem?_eq_some_iff.1 hp).1 hcolumns).1 (hp.trans hq.symm)

namespace Table

variable {t u : Table}

structure WithoutRow (t : Table) (i : Nat) (u : Table) : Prop where
  columns : u.columns = t.columns
  rowCount : t.rows.size = u.rows.size + 1
  cell? : ∀ a, u.cell? a = t.cell? ⟨a.col, skip i a.row⟩

structure WithoutColumn (t : Table) (p : Nat) (u : Table) : Prop where
  columns : u.columns.toList = t.columns.toList.eraseIdx p
  rowCount : u.rows.size = t.rows.size
  cell? : ∀ a, u.cell? a = t.cell? ⟨skip p a.col, a.row⟩

theorem cell?_of_rows {a b : Address} (hcol : u.columns[a.col]? = t.columns[b.col]?)
    (hrow : u.rows[a.row]? = t.rows[b.row]?) : u.cell? a = t.cell? b := by
  simp only [cell?, hcol, hrow]

theorem cell?_of_map {a b : Address} {f : Row → Row} (hrows : u.rows = t.rows.map f)
    (hrow : a.row = b.row)
    (hf : ∀ row ∈ t.rows, (u.columns[a.col]?.bind fun key => (f row)[key]?) =
      t.columns[b.col]?.bind fun key => row[key]?) : u.cell? a = t.cell? b := by
  simp only [cell?, hrows, hrow, Array.getElem?_map, Option.bind_eq_bind]
  cases h : t.rows[b.row]? with
  | none => simp
  | some row => simpa using hf row (Array.mem_of_getElem? h)

end Table

namespace Sheet

variable {s t : Sheet}

structure RowInserted (s : Sheet) (i : Nat) (t : Sheet) : Prop where
  without : t.WithoutRow i s.toTable
  blank : ∀ col < s.columns.size, t.cell? ⟨col, i⟩ = some .empty

structure ColumnInserted (s : Sheet) (p : Nat) (name : String) (t : Sheet) : Prop where
  without : t.WithoutColumn p s.toTable
  named : t.columns[p]? = some name
  blank : ∀ row < s.rows.size, t.cell? ⟨p, row⟩ = some .empty

theorem rowInserted_insertRow {i : Nat} (h : s.insertRow i = .ok t) : s.RowInserted i t := by
  obtain ⟨hi, rfl⟩ := insertRow_eq_ok h
  refine ⟨⟨rfl, by simp, fun a => Table.cell?_of_rows rfl ?_⟩, fun col hcol => ?_⟩
  · rw [← Array.getElem?_toList, ← Array.getElem?_toList, Array.toList_insertIdx]
    exact (getElem?_skip_insertIdx _ _ _ _).symm
  · have hrow : (s.rows.insertIdx i s.blankRow hi)[i]? = some s.blankRow := by
      rw [Array.getElem?_insertIdx_self hi]
    rw [Table.cell?_eq (Array.getElem?_eq_getElem hcol) hrow, getElem?_blankRow,
      if_pos (Array.getElem_mem hcol)]

theorem deleteRow_insertRow {i : Nat} (h : s.insertRow i = .ok t) : t.deleteRow i = .ok s := by
  obtain ⟨hi, rfl⟩ := insertRow_eq_ok h
  have hlt : i < (s.rows.insertIdx i s.blankRow hi).size := by
    rw [Array.size_insertIdx]
    omega
  rw [deleteRow, dif_pos hlt]
  simp only [Array.eraseIdx_insertIdx_self]

theorem withoutRow_deleteRow {i : Nat} (h : s.deleteRow i = .ok t) :
    s.WithoutRow i t.toTable := by
  obtain ⟨hi, rfl⟩ := deleteRow_eq_ok h
  refine ⟨rfl, ?_, fun a => Table.cell?_of_rows rfl ?_⟩
  · rw [Array.size_eraseIdx]
    omega
  · rw [← Array.getElem?_toList, ← Array.getElem?_toList, Array.toList_eraseIdx]
    exact getElem?_skip _ _ _

theorem columnInserted_withColumn {p : Nat} {name : String} (hp : p ≤ s.columns.size)
    (hname : name ∉ s.columns) : s.ColumnInserted p name (s.withColumn p name) := by
  have hcol : (s.withColumn p name).columns[p]? = some name := by
    rw [← Array.getElem?_toList, columns_withColumn hp, List.getElem?_insertIdx_self]
    simpa using hp
  refine ⟨⟨?_, by simp [withColumn], fun a => ?_⟩, hcol, fun row hrow => ?_⟩
  · rw [columns_withColumn hp, List.eraseIdx_insertIdx_self]
  · symm
    refine Table.cell?_of_map (f := fun row => row.insert name .empty) rfl rfl fun row _ => ?_
    rw [← Array.getElem?_toList, columns_withColumn hp, getElem?_skip_insertIdx,
      Array.getElem?_toList]
    cases hkey : s.columns[a.col]? with
    | none => rfl
    | some key =>
      have hne : name ≠ key := fun heq => hname (heq ▸ Array.mem_of_getElem? hkey)
      simp [Std.ExtTreeMap.getElem?_insert, hne]
  · have hrow' : (s.withColumn p name).rows[row]? = some (s.rows[row].insert name .empty) := by
      simp [withColumn, hrow]
    rw [Table.cell?_eq hcol hrow', Std.ExtTreeMap.getElem?_insert_self]

theorem withoutColumn_deleteColumn {name : String} (hs : s.columns.toList.Nodup)
    (h : s.deleteColumn name = .ok t) :
    ∃ p, s.columns[p]? = some name ∧ s.WithoutColumn p t.toTable := by
  obtain ⟨before, after, hcols, -, rfl⟩ := deleteColumn_eq_ok h
  have herase : s.columns.toList.eraseIdx before.length = before ++ after := by
    simp [hcols, List.eraseIdx_append_of_length_le]
  refine ⟨before.length, ?_, herase.symm, by simp, fun a => ?_⟩
  · rw [← Array.getElem?_toList, hcols]
    simp
  · refine Table.cell?_of_map (f := fun row => row.erase name) rfl rfl fun row _ => ?_
    have hcol : s.columns[skip before.length a.col]? = (before ++ after)[a.col]? := by
      rw [← Array.getElem?_toList, ← getElem?_skip, herase]
    rw [hcol, List.getElem?_toArray]
    cases hkey : (before ++ after)[a.col]? with
    | none => rfl
    | some key =>
      have hne : name ≠ key := by
        rintro rfl
        rw [hcols, List.nodup_middle, List.nodup_cons] at hs
        exact hs.1 (List.mem_of_getElem? hkey)
      simp [Std.ExtTreeMap.getElem?_erase, hne]

theorem erase_insert {row : Row} {name : String} (h : name ∉ row) (content : Content) :
    (row.insert name content).erase name = row := by
  apply Std.ExtTreeMap.ext_getElem?
  intro key
  simp only [Std.ExtTreeMap.getElem?_erase, Std.ExtTreeMap.getElem?_insert,
    Std.LawfulEqCmp.compare_eq_iff_eq]
  by_cases hkey : name = key
  · rw [if_pos hkey, ← hkey, Std.ExtTreeMap.getElem?_eq_none h]
  · rw [if_neg hkey, if_neg hkey]

theorem deleteColumn_withColumn {p : Nat} {name : String} (hs : s.Keyed) (hp : p ≤ s.columns.size)
    (hname : name ∉ s.columns) : (s.withColumn p name).deleteColumn name = .ok s := by
  obtain ⟨⟨hcolumns, -, -⟩, hcol, -⟩ := columnInserted_withColumn hp hname
  have hnodup : (s.withColumn p name).columns.toList.Nodup := by
    rw [(columns_withColumn_perm hp name).nodup_iff, List.nodup_cons, Array.mem_toList_iff]
    exact ⟨hname, hs.nodup⟩
  obtain ⟨u, hu⟩ := exists_eq_ok_of_not_error
    (mt exists_deleteColumn_eq_error_iff.1 (not_not.2 (Array.mem_of_getElem? hcol)))
  obtain ⟨q, hq, hwithout⟩ := withoutColumn_deleteColumn hnodup hu
  obtain ⟨before, after, -, -, rfl⟩ := deleteColumn_eq_ok hu
  have hqp : q = p := position_unique hnodup hq hcol
  have hsame : (before ++ after).toArray = s.columns :=
    Array.toList_inj.1 (hwithout.columns.trans (hqp ▸ hcolumns.symm))
  have hrows : (s.rows.map fun row => (row.insert name .empty).erase name) = s.rows := by
    refine (Array.map_congr_left fun row hrow => erase_insert ?_ .empty).trans (Array.map_id s.rows)
    rwa [hs.keys row hrow]
  rw [hu, hsame]
  simp only [withColumn, Array.map_map, Function.comp_def, hrows]

theorem cell?_of_renameColumn {old new : String} (hs : s.Keyed) (h : s.renameColumn old new = .ok t)
    (a : Address) : t.cell? a = s.cell? a := by
  obtain ⟨-, -, rfl⟩ | ⟨hnew, before, after, hcols, hbefore, rfl⟩ := renameColumn_eq_ok h
  · rfl
  refine Table.cell?_of_map (f := renameKey old new) rfl rfl fun row hrow => ?_
  have hold : s.columns[before.length]? = some old := by
    rw [← Array.getElem?_toList, hcols]
    simp
  have hset : before ++ new :: after = s.columns.toList.set before.length new := by simp [hcols]
  rw [List.getElem?_toArray, hset, List.getElem?_set, Array.getElem?_toList]
  split
  · next hcol =>
    have hmem : old ∈ row := (hs.keys row hrow old).2 (Array.mem_of_getElem? hold)
    have hlt : before.length < s.columns.toList.length := (Array.getElem?_eq_some_iff.1 hold).1
    rw [if_pos hlt, ← hcol, hold, Option.bind_some, Option.bind_some, getElem?_renameKey, if_pos rfl,
      Std.ExtTreeMap.getElem?_eq_some_getElem hmem, Option.getD_some]
  · next hcol =>
    cases hkey : s.columns[a.col]? with
    | none => rfl
    | some key =>
      have hkeynew : key ≠ new := fun heq => hnew (heq ▸ Array.mem_of_getElem? hkey)
      have hkeyold : key ≠ old := by
        rintro rfl
        exact hcol (position_unique hs.nodup hold hkey)
      rw [Option.bind_some, Option.bind_some, getElem?_renameKey, if_neg hkeynew, if_neg hkeyold]

theorem renameKey_renameKey {old new : String} {row : Row} (hold : old ∈ row) (hnew : new ∉ row) :
    renameKey new old (renameKey old new row) = row := by
  apply Std.ExtTreeMap.ext_getElem?
  intro name
  have hget : (renameKey old new row)[new]? = row[old]? := by
    rw [getElem?_renameKey, if_pos rfl, Std.ExtTreeMap.getElem?_eq_some_getElem hold, Option.getD_some]
  rw [getElem?_renameKey, hget, getElem?_renameKey]
  split
  · next h => rw [h, Std.ExtTreeMap.getElem?_eq_some_getElem hold, Option.getD_some]
  · split
    · next h => rw [h, Std.ExtTreeMap.getElem?_eq_none hnew]
    · rfl

theorem rows_renamed_back {old new : String} (hs : s.Keyed) (hold : old ∈ s.columns)
    (hnew : new ∉ s.columns) :
    (s.rows.map fun row => renameKey new old (renameKey old new row)) = s.rows := by
  refine (Array.map_congr_left fun row hrow => renameKey_renameKey ?_ ?_).trans
    (Array.map_id s.rows)
  · rwa [hs.keys row hrow]
  · rwa [hs.keys row hrow]

theorem renameColumn_renameColumn {old new : String} (hs : s.Keyed)
    (h : s.renameColumn old new = .ok t) (hblank : Text.trim old ≠ "") :
    t.renameColumn new old = .ok s := by
  obtain ⟨-, rfl, rfl⟩ | ⟨hnew, before, after, hcols, -, ht⟩ := renameColumn_eq_ok h
  · exact h
  have htcols : t.columns.toList = before ++ new :: after := by rw [ht]
  have hold : old ∈ s.columns := by simp [← Array.mem_toList_iff, hcols]
  have hne : old ≠ new := fun heq => hnew (heq ▸ hold)
  have hnodup := hs.nodup
  rw [hcols, List.nodup_middle, List.nodup_cons] at hnodup
  have hnew' : new ∉ before ∧ new ∉ after := by
    rw [← Array.mem_toList_iff, hcols, List.mem_append, List.mem_cons] at hnew
    exact ⟨fun hmem => hnew (.inl hmem), fun hmem => hnew (.inr (.inr hmem))⟩
  have haccepted : ¬(new ∉ t.columns ∨ new ≠ old ∧ (Text.trim old = "" ∨ old ∈ t.columns)) := by
    simp only [← Array.mem_toList_iff, htcols, List.mem_append, List.mem_cons]
    simp only [List.mem_append] at hnodup
    grind
  obtain ⟨u, hu⟩ := exists_eq_ok_of_not_error (mt exists_renameColumn_eq_error_iff.1 haccepted)
  obtain ⟨-, hsame, -⟩ | ⟨-, before', after', htcols', -, rfl⟩ := renameColumn_eq_ok hu
  · exact absurd hsame.symm hne
  obtain ⟨rfl, -, rfl⟩ :=
    (List.append_cons_inj_of_notMem hnew'.1 hnew'.2).1 (htcols.symm.trans htcols')
  rw [hu, ht, ← hcols]
  simp only [Array.map_map, Function.comp_def, rows_renamed_back hs hold hnew]

theorem evaluate_of_renameColumn {old new : String} (hs : s.Keyed)
    (h : s.renameColumn old new = .ok t) (a : Address) : t.evaluate a = s.evaluate a := by
  have hgrid : t.grid = s.grid := by
    have hcell : t.cell? = s.cell? := funext (cell?_of_renameColumn hs h)
    obtain ⟨-, -, rfl⟩ | ⟨-, before, after, hcols, -, rfl⟩ := renameColumn_eq_ok h
    · rfl
    · have hsize : s.columns.size = (before ++ new :: after).length := by
        rw [← Array.length_toList, hcols, List.length_append, List.length_append]
        rfl
      simp only [Table.grid, hcell, Array.size_map, List.size_toArray, hsize]
  simp only [evaluate, cell?_of_renameColumn hs h, hgrid]

/-- Edits of the rows and columns move the cells of a sheet by position and change none of them, and
what puts in or renames is undone exactly by taking out or renaming back. -/
theorem structural_edits_shift (s : Sheet) (hs : s.Keyed) :
    (∀ i t, s.insertRow i = .ok t → s.RowInserted i t ∧ t.deleteRow i = .ok s) ∧
    (∀ i t, s.deleteRow i = .ok t → s.WithoutRow i t.toTable) ∧
    (∀ name t, s.addColumn name = .ok t →
      s.ColumnInserted s.columns.size name t ∧ t.deleteColumn name = .ok s) ∧
    (∀ after, s.ColumnInserted (min (after + 1) s.columns.size) s.freshName (s.insertColumn after) ∧
      (s.insertColumn after).deleteColumn s.freshName = .ok s) ∧
    (∀ name t, s.deleteColumn name = .ok t →
      ∃ p, s.columns[p]? = some name ∧ s.WithoutColumn p t.toTable) ∧
    ∀ old new t, s.renameColumn old new = .ok t →
      (∀ a, t.cell? a = s.cell? a) ∧ (∀ a, t.evaluate a = s.evaluate a) ∧
        (Text.trim old ≠ "" → t.renameColumn new old = .ok s) := by
  refine ⟨fun i t h => ⟨rowInserted_insertRow h, deleteRow_insertRow h⟩,
    fun i t => withoutRow_deleteRow, fun name t h => ?_, fun after => ?_,
    fun name t => withoutColumn_deleteColumn hs.nodup,
    fun old new t h => ⟨cell?_of_renameColumn hs h, evaluate_of_renameColumn hs h,
      renameColumn_renameColumn hs h⟩⟩
  · obtain ⟨⟨-, hname⟩, rfl⟩ := addColumn_eq_ok h
    have hp := Nat.le_refl s.columns.size
    exact ⟨columnInserted_withColumn hp hname, deleteColumn_withColumn hs hp hname⟩
  · have hp := Nat.min_le_right (after + 1) s.columns.size
    exact ⟨columnInserted_withColumn hp s.freshName_not_mem,
      deleteColumn_withColumn hs hp s.freshName_not_mem⟩

def stock : Sheet :=
  (ofColumns "Stock" ["Item", "Count"]).run
    [.addRow, .addRow, .setInput "A1" "Bolts", .setInput "B1" "12", .setInput "B2" "=B1*2"]

theorem structural_edits_shift_stock :
    stock.Keyed ∧
    (∃ t, stock.insertRow 1 = .ok t ∧ t.cell? ⟨1, 2⟩ = some (.text "=B1*2") ∧
      t.deleteRow 1 = .ok stock) ∧
    (stock.insertColumn 0).cell? ⟨2, 0⟩ = some (.number 12) ∧
    (stock.insertColumn 0).deleteColumn "New Column" = .ok stock ∧
    ∃ t, stock.renameColumn "Item" "Part" = .ok t ∧ t.renameColumn "Part" "Item" = .ok stock := by
  have hs : stock.Keyed := (keyed_ofColumns _ (by decide)).run _
  obtain ⟨hinsert, -, -, hcolumn, -, hrename⟩ := structural_edits_shift stock hs
  have hrow : stock.insertRow 1 = .ok (stock.edit (.insertRow 1)) := by decide +kernel
  have hname : stock.renameColumn "Item" "Part" = .ok (stock.edit (.renameColumn "Item" "Part")) := by
    decide +kernel
  have hfresh : stock.freshName = "New Column" := by decide +kernel
  refine ⟨hs, ⟨_, hrow, ?_, (hinsert 1 _ hrow).2⟩, ?_, hfresh ▸ (hcolumn 0).2, _, hname,
    (hrename "Item" "Part" _ hname).2.2 (by decide +kernel)⟩
  · have hmoved := (hinsert 1 _ hrow).1.without.cell? ⟨1, 1⟩
    exact hmoved.symm.trans (by decide +kernel)
  · have hmoved := (hcolumn 0).1.without.cell? ⟨1, 0⟩
    exact hmoved.symm.trans (by decide +kernel)

end Sheet

end Spreadsheet
