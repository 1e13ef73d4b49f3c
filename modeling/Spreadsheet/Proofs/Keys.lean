import Spreadsheet.Proofs.Change
import Spreadsheet.Proofs.Letters

namespace Spreadsheet

namespace Row

theorem getElem?_foldl_insert (names : List String) (row : Row) (name : String) :
    (names.foldl (fun row key => row.insert key Content.empty) row)[name]? =
      if name ∈ names then some .empty else row[name]? := by
  induction names generalizing row with
  | nil => rfl
  | cons key names ih =>
    rw [List.foldl_cons, ih]
    simp only [Std.ExtTreeMap.getElem?_insert, Std.LawfulEqCmp.compare_eq_iff_eq, List.mem_cons]
    grind

theorem getElem?_foldl_insertIfNew (names : List String) (row : Row) (name : String) :
    (names.foldl (fun row key => row.insertIfNew key Content.empty) row)[name]? =
      if name ∈ names then some (row[name]?.getD .empty) else row[name]? := by
  induction names generalizing row with
  | nil => rfl
  | cons key names ih =>
    rw [List.foldl_cons, ih]
    simp only [Std.ExtTreeMap.getElem?_insertIfNew, Std.LawfulEqCmp.compare_eq_iff_eq, List.mem_cons]
    by_cases hkey : key = name
    · subst hkey
      by_cases hrow : key ∈ row <;> simp [hrow]
    · simp [hkey, Ne.symm hkey]

end Row

namespace Sheet

theorem getElem?_blankRow (s : Sheet) (name : String) :
    s.blankRow[name]? = if name ∈ s.columns then some .empty else none := by
  rw [blankRow, ← Array.foldl_toList, Row.getElem?_foldl_insert]
  simp

theorem getElem?_normalizeRow (columns : Array String) (row : Row) (name : String) :
    (normalizeRow columns row)[name]? =
      if name ∈ columns then some (row[name]?.getD .empty) else none := by
  rw [normalizeRow, ← Array.foldl_toList, Row.getElem?_foldl_insertIfNew,
    Std.ExtTreeMap.getElem?_filter']
  by_cases hname : name ∈ columns <;> cases row[name]? <;> simp [hname, Option.filter]

@[simp] theorem mem_blankRow {s : Sheet} {name : String} :
    name ∈ s.blankRow ↔ name ∈ s.columns := by
  rw [Std.ExtTreeMap.mem_iff_isSome_getElem?, getElem?_blankRow]
  simp

theorem getElem?_renameKey (old new name : String) (row : Row) :
    (renameKey old new row)[name]? = if name = new then some (row[old]?.getD .empty)
      else if name = old then none else row[name]? := by
  simp only [renameKey, Std.ExtTreeMap.getElem?_insert, Std.ExtTreeMap.getElem?_erase,
    Std.LawfulEqCmp.compare_eq_iff_eq, eq_comm (b := name)]

theorem mem_renameKey {old new name : String} {row : Row} :
    name ∈ renameKey old new row ↔ name = new ∨ (name ≠ old ∧ name ∈ row) := by
  simp only [renameKey, Std.ExtTreeMap.mem_insert, Std.ExtTreeMap.mem_erase]
  grind

@[simp] theorem mem_normalizeRow {columns : Array String} {row : Row} {name : String} :
    name ∈ normalizeRow columns row ↔ name ∈ columns := by
  rw [Std.ExtTreeMap.mem_iff_isSome_getElem?, getElem?_normalizeRow]
  simp

end Sheet

namespace Table

/-- Every row has a cell under the name of each column and under no other name. -/
def KeysMatch (t : Table) : Prop :=
  ∀ row ∈ t.rows, ∀ name, name ∈ row ↔ name ∈ t.columns

structure Keyed (t : Table) : Prop where
  nodup : t.columns.toList.Nodup
  keys : t.KeysMatch

variable {t u : Table} {a : Address}

theorem KeysMatch.of_rows (h : t.KeysMatch) (hc : u.columns = t.columns)
    (hr : ∀ row ∈ u.rows, row ∈ t.rows ∨ ∀ name, name ∈ row ↔ name ∈ t.columns) :
    u.KeysMatch := by
  intro row hrow
  rw [hc]
  exact (hr row hrow).elim (h row) id

theorem KeysMatch.set? {content : Content} (h : t.KeysMatch) (hu : t.set? a content = some u) :
    u.KeysMatch := by
  obtain ⟨key, row, hc, hr, rfl⟩ := set?_eq_some_iff.1 hu
  refine h.of_rows rfl fun row' hrow' => ?_
  rcases Array.mem_or_eq_of_mem_setIfInBounds hrow' with hold | rfl
  · exact .inl hold
  · refine .inr fun name => ?_
    rw [Std.ExtTreeMap.mem_insert, h row (Array.mem_of_getElem? hr),
      Std.LawfulEqCmp.compare_eq_iff_eq]
    refine or_iff_right_of_imp ?_
    rintro rfl
    exact Array.mem_of_getElem? hc

theorem KeysMatch.exists_cell? (h : t.KeysMatch) (ha : t.grid.inBounds a = true) :
    ∃ c, t.cell? a = some c := by
  obtain ⟨key, row, hc, hr⟩ := inBounds_iff.1 ha
  rw [cell?_eq hc hr]
  exact Option.isSome_iff_exists.1 (Std.ExtTreeMap.mem_iff_isSome_getElem?.1
    ((h row (Array.mem_of_getElem? hr) key).2 (Array.mem_of_getElem? hc)))

theorem one_lt_count_iff {names : Array String} {name : String} {before after : List String}
    (h : names.toList = before ++ name :: after) (hbefore : name ∉ before) :
    1 < names.count name ↔ name ∈ after := by
  rw [← Array.count_toList, h, List.count_append, List.count_eq_zero_of_not_mem hbefore,
    List.count_cons_self, ← List.count_pos_iff]
  omega

end Table

namespace Table.KeysMatch

variable {s t : Sheet}

theorem addRow (h : s.KeysMatch) : s.addRow.KeysMatch :=
  h.of_rows rfl fun row hrow => by
    rcases Array.mem_push.1 hrow with hold | rfl
    · exact .inl hold
    · exact .inr fun _ => Sheet.mem_blankRow

theorem insertRow {index : Nat} (h : s.KeysMatch) (ht : s.insertRow index = .ok t) :
    t.KeysMatch := by
  obtain ⟨hi, rfl⟩ := Sheet.insertRow_eq_ok ht
  refine h.of_rows rfl fun row hrow => ?_
  rcases (Array.mem_insertIdx (h := hi)).1 hrow with rfl | hold
  · exact .inr fun _ => Sheet.mem_blankRow
  · exact .inl hold

theorem deleteRow {index : Nat} (h : s.KeysMatch) (ht : s.deleteRow index = .ok t) :
    t.KeysMatch := by
  obtain ⟨hi, rfl⟩ := Sheet.deleteRow_eq_ok ht
  exact h.of_rows rfl fun row hrow => .inl (Array.mem_of_mem_eraseIdx hrow)

theorem withColumn {position : Nat} (h : s.KeysMatch) (hp : position ≤ s.columns.size)
    (name : String) : (s.withColumn position name).KeysMatch := by
  intro row' hrow' name'
  obtain ⟨row, hrow, rfl⟩ := Array.mem_map.1 hrow'
  rw [← Array.mem_toList_iff, (Sheet.columns_withColumn_perm hp name).mem_iff, List.mem_cons,
    Array.mem_toList_iff, Std.ExtTreeMap.mem_insert, h row hrow,
    Std.LawfulEqCmp.compare_eq_iff_eq, eq_comm]

theorem renameColumn {old new : String} (h : s.KeysMatch) (hne : old ≠ new)
    (ht : s.renameColumn old new = .ok t) (hold : s.rows ≠ #[] → ¬1 < s.columns.count old) :
    t.KeysMatch := by
  obtain ⟨-, hsame, -⟩ | ⟨hnew, before, after, hcols, hbefore, rfl⟩ := Sheet.renameColumn_eq_ok ht
  · exact absurd hsame hne
  rw [← Array.mem_toList_iff, hcols] at hnew
  intro row' hrow' name
  obtain ⟨row, hrow, rfl⟩ := Array.mem_map.1 hrow'
  have hafter := mt (one_lt_count_iff hcols hbefore).2 (hold (Array.ne_empty_of_mem hrow))
  rw [Sheet.mem_renameKey, h row hrow, ← Array.mem_toList_iff, hcols]
  simp only [List.mem_append, List.mem_cons, List.mem_toArray] at hnew ⊢
  grind

theorem deleteColumn {name : String} (h : s.KeysMatch) (ht : s.deleteColumn name = .ok t)
    (hname : s.rows ≠ #[] → ¬1 < s.columns.count name) : t.KeysMatch := by
  obtain ⟨before, after, hcols, hbefore, rfl⟩ := Sheet.deleteColumn_eq_ok ht
  intro row' hrow' name'
  obtain ⟨row, hrow, rfl⟩ := Array.mem_map.1 hrow'
  have hafter := mt (one_lt_count_iff hcols hbefore).2 (hname (Array.ne_empty_of_mem hrow))
  rw [Std.ExtTreeMap.mem_erase, h row hrow, ← Array.mem_toList_iff, hcols]
  simp only [List.mem_append, List.mem_cons, List.mem_toArray]
  grind

theorem setCell {a : Address} {content : Content} (h : s.KeysMatch)
    (ht : s.setCell a content = .ok t) : t.KeysMatch := by
  obtain ⟨u, hu, rfl⟩ := Sheet.setCell_eq_ok ht
  exact h.set? hu

theorem clearRange (h : s.KeysMatch) (r : Range) : (s.clearRange r).KeysMatch :=
  Sheet.clearRange_induction (P := fun t => t.KeysMatch) (fun h ht => h.setCell ht) h r

theorem normalize (s : Sheet) : s.normalize.KeysMatch := by
  intro row' hrow' name
  obtain ⟨row, -, rfl⟩ := Array.mem_map.1 hrow'
  exact Sheet.mem_normalizeRow

theorem cellAt_eq_error_iff {reference : String} {e : SheetError} (h : s.KeysMatch) :
    s.cellAt reference = .error e ↔ s.resolve reference = .error e := by
  rw [Sheet.cellAt]
  split
  · next hr => simp [hr]
  · next a hr =>
    obtain ⟨c, hc⟩ := h.exists_cell? (Sheet.inBounds_of_resolve hr)
    simp [hr, hc]

theorem change {removed : Option String} (h : s.KeysMatch) (ht : s.Change removed t)
    (hremoved : ∀ name ∈ removed, s.rows ≠ #[] → ¬1 < s.columns.count name) : t.KeysMatch := by
  cases ht with
  | same hsame => rwa [hsame]
  | addRow => exact h.addRow
  | insertRow hrow => exact h.insertRow hrow
  | deleteRow hrow => exact h.deleteRow hrow
  | withColumn hp hname => exact h.withColumn hp _
  | renameColumn hne hcol => exact h.renameColumn hne hcol (hremoved _ rfl)
  | deleteColumn hcol => exact h.deleteColumn hcol (hremoved _ rfl)
  | setCell hcell => exact h.setCell hcell
  | clearRange r => exact h.clearRange r
  | normalize => exact normalize s

end Table.KeysMatch

namespace Table.Keyed

variable {s t : Sheet}

theorem apply {e : Edit} {reply : Reply} (h : s.Keyed) (ht : s.apply e = .ok (t, reply)) :
    t.Keyed where
  nodup := (Sheet.change_apply ht).nodup_columns h.nodup
  keys := h.keys.change (Sheet.change_apply ht) fun name _ _ => by
    rw [← Array.count_toList, Nat.not_lt]
    exact List.nodup_iff_count_le_one.1 h.nodup name

theorem edit (h : s.Keyed) (e : Edit) : (s.edit e).Keyed := by
  rw [Sheet.edit]
  split
  · next ht => exact h.apply ht
  · exact h

theorem run (h : s.Keyed) (es : List Edit) : (s.run es).Keyed := by
  induction es generalizing s with
  | nil => exact h
  | cons e es ih => exact ih (h.edit e)

end Table.Keyed

namespace Sheet

theorem keyed_ofColumns (name : String) {columns : List String} (h : columns.Nodup) :
    (ofColumns name columns).Keyed :=
  ⟨h, fun _ hrow => absurd hrow (Array.not_mem_empty _)⟩

/-- However a sheet is built and edited, its columns have different names and its rows one cell for
each, so all of it can be read. -/
theorem keyed_throughout :
    empty.Keyed ∧
    (∀ name columns, columns.Nodup → (ofColumns name columns).Keyed) ∧
    (∀ name count, (ofLetters name count).Keyed) ∧
    ∀ (s : Sheet) (es : List Edit), s.Keyed →
      (s.run es).Keyed ∧
      (∀ a, (s.run es).grid.inBounds a = true → ∃ c, (s.run es).cell? a = some c) ∧
      ∀ reference e,
        (s.run es).cellAt reference = .error e ↔ (s.run es).resolve reference = .error e := by
  refine ⟨keyed_ofColumns "" List.nodup_nil, fun name _ => keyed_ofColumns name,
    fun name count => keyed_ofColumns name (nodup_letterColumns count), fun s es h => ?_⟩
  have hrun := h.run es
  exact ⟨hrun, fun _ ha => hrun.keys.exists_cell? ha, fun _ _ => hrun.keys.cellAt_eq_error_iff⟩

theorem keyed_throughout_two_columns :
    ["A", "B"].Nodup ∧
    ((ofColumns "S" ["A", "B"]).run [.addRow, .renameColumn "B" "C", .insertColumn 0,
      .deleteColumn "A", .insertRow 7, .setInput "B1" "=A1"]).Keyed := by
  refine ⟨by decide, ?_⟩
  have hnew : (ofColumns "S" ["A", "B"]).Keyed := keyed_throughout.2.1 "S" ["A", "B"] (by decide)
  exact (keyed_throughout.2.2.2 _ _ hnew).1

end Sheet

end Spreadsheet
