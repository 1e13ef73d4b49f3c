import Mathlib.Tactic.Common
import Spreadsheet.Table

namespace Spreadsheet

theorem Grid.inBounds_eq_true_iff {g : Grid} {a : Address} :
    g.inBounds a = true ↔ a.row < g.rowCount ∧ a.col < g.colCount := by
  simp [inBounds]

namespace Table

variable {t u : Table} {a : Address} {content : Content}

@[simp] theorem grid_rowCount (t : Table) : t.grid.rowCount = t.rows.size := rfl

@[simp] theorem grid_colCount (t : Table) : t.grid.colCount = t.columns.size := rfl

@[simp] theorem grid_cell (t : Table) (a : Address) : t.grid.cell a = t.cell? a := rfl

theorem inBounds_iff :
    t.grid.inBounds a = true ↔ ∃ key row, t.columns[a.col]? = some key ∧ t.rows[a.row]? = some row := by
  rw [Grid.inBounds_eq_true_iff, grid_rowCount, grid_colCount]
  constructor
  · rintro ⟨hr, hc⟩
    exact ⟨t.columns[a.col], t.rows[a.row], by simp [hc], by simp [hr]⟩
  · rintro ⟨key, row, hc, hr⟩
    exact ⟨(Array.getElem?_eq_some_iff.1 hr).1, (Array.getElem?_eq_some_iff.1 hc).1⟩

theorem cell?_eq {key : String} {row : Row} (hc : t.columns[a.col]? = some key)
    (hr : t.rows[a.row]? = some row) : t.cell? a = row[key]? := by
  simp [cell?, hc, hr]

theorem set?_eq_some_iff :
    t.set? a content = some u ↔ ∃ key row, t.columns[a.col]? = some key ∧
      t.rows[a.row]? = some row ∧
      u = { t with rows := t.rows.setIfInBounds a.row (row.insert key content) } := by
  simp only [set?, Option.bind_eq_bind, Option.bind_eq_some_iff, Option.pure_def,
    Option.some.injEq, eq_comm (b := u)]
  constructor
  · rintro ⟨key, hc, row, hr, rfl⟩
    exact ⟨key, row, hc, hr, rfl⟩
  · rintro ⟨key, row, hc, hr, rfl⟩
    exact ⟨key, hc, row, hr, rfl⟩

theorem cell?_of_set? {b : Address} (h : t.set? b content = some u) (a : Address) :
    u.cell? a = if a.row = b.row ∧ t.columns[a.col]? = t.columns[b.col]? then some content
      else t.cell? a := by
  obtain ⟨key, row, hc, hr, rfl⟩ := set?_eq_some_iff.1 h
  have hb := (Array.getElem?_eq_some_iff.1 hr).1
  cases hkey : t.columns[a.col]? with
  | none => simp [cell?, hkey, hc]
  | some key' =>
    by_cases hrow : a.row = b.row
    · have hnew : (t.rows.setIfInBounds b.row (row.insert key content))[b.row]? =
          some (row.insert key content) := Array.getElem?_setIfInBounds_self_of_lt hb
      simp [cell?, hkey, hnew, hr, hrow, hc, Std.ExtTreeMap.getElem?_insert, eq_comm (a := key)]
    · simp [cell?, hkey, hrow, Ne.symm hrow]

theorem exists_set?_eq_some_iff :
    (∃ u, t.set? a content = some u) ↔ t.grid.inBounds a = true := by
  simp only [set?_eq_some_iff, inBounds_iff]
  constructor
  · rintro ⟨u, key, row, hc, hr, -⟩
    exact ⟨key, row, hc, hr⟩
  · rintro ⟨key, row, hc, hr⟩
    exact ⟨_, key, row, hc, hr, rfl⟩

end Table

namespace Shadow

variable {s : Shadow}

def commit (s : Shadow) : Table :=
  { s.table with rows := s.table.rows.setIfInBounds s.index s.row }

theorem grid_eq_grid_commit (h : s.index < s.table.rows.size) : s.grid = s.commit.grid := by
  have hcell : s.cell? = s.commit.cell? := by
    funext a
    simp only [cell?, commit, Table.cell?, Array.getElem?_setIfInBounds, Option.bind_eq_bind]
    split
    · next ha => simp [ha]
    · next ha => simp [Ne.symm ha]
  simp [grid, Table.grid, hcell, commit]

theorem commit_set? {t u : Table} {a : Address} {content : Content}
    (hu : t.set? a content = some u) :
    ∃ s s' : Shadow, ofTable? t a.row = some s ∧ s.set? a.col content = some s' ∧
      s'.index < s'.table.rows.size ∧ s'.commit = u := by
  obtain ⟨key, row, hc, hr, rfl⟩ := Table.set?_eq_some_iff.1 hu
  refine ⟨⟨t, a.row, row⟩, ⟨t, a.row, row.insert key content⟩, ?_, ?_, ?_, rfl⟩
  · simp [ofTable?, hr]
  · simp [set?, hc]
  · exact (Array.getElem?_eq_some_iff.1 hr).1

end Shadow

end Spreadsheet
