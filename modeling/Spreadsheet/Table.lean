import Std.Data.ExtTreeMap
import Spreadsheet.Grid

namespace Spreadsheet

abbrev Row := Std.ExtTreeMap String Content

/-- A cell is found by the name of its column, so columns of one name share their cells. -/
structure Table where
  columns : Array String
  rows : Array Row
  deriving DecidableEq

namespace Table

def cell? (t : Table) (a : Address) : Option Content := do
  let key ← t.columns[a.col]?
  let row ← t.rows[a.row]?
  row[key]?

def grid (t : Table) : Grid where
  rowCount := t.rows.size
  colCount := t.columns.size
  cell := t.cell?

def set? (t : Table) (a : Address) (content : Content) : Option Table := do
  let key ← t.columns[a.col]?
  let row ← t.rows[a.row]?
  return { t with rows := t.rows.setIfInBounds a.row (row.insert key content) }

end Table

/-- A table with a private copy of one row that can be changed; the table itself stays as it is. -/
structure Shadow where
  table : Table
  index : Nat
  row : Row

namespace Shadow

def ofTable? (t : Table) (index : Nat) : Option Shadow :=
  t.rows[index]?.map fun row => ⟨t, index, row⟩

def set? (s : Shadow) (col : Nat) (content : Content) : Option Shadow :=
  s.table.columns[col]?.map fun key => { s with row := s.row.insert key content }

def cell? (s : Shadow) (a : Address) : Option Content :=
  if a.row = s.index then s.table.columns[a.col]?.bind (s.row[·]?) else s.table.cell? a

def grid (s : Shadow) : Grid where
  rowCount := s.table.rows.size
  colCount := s.table.columns.size
  cell := s.cell?

end Shadow

end Spreadsheet
