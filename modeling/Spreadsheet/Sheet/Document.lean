import Spreadsheet.Document
import Spreadsheet.Sheet.Basic

namespace Spreadsheet

def Content.toDocument : Content → Document
  | .empty => .null
-- Only a finite number has a stored form of its own.
  | .number n => if n.isFinite then .number n else .null
  | .text s => .text s

def Content.ofDocument? : Document → Option Content
  | .null => some .empty
  | .integer n => some (.number (.ofInt n))
  | .number x => some (.number x)
  | .text s => some (.text s)
  | _ => none

namespace Row

def toDocument (row : Row) : Document :=
  .fields (row.toList.map fun (name, content) => (name, content.toDocument))

def ofDocument? (d : Document) : Option Row := do
  let cells ← (← d.fields?).mapM fun (name, d) => return (name, ← Content.ofDocument? d)
  return cells.foldl (fun row (name, content) => row.insert name content) ∅

end Row

namespace Sheet

def toDocument (s : Sheet) : Document :=
  let watched := if s.watched.isEmpty then []
    else [("watchedCells", .list (s.watched.toList.map .text))]
  .fields ([("name", .text s.name),
    ("columns", .list (s.columns.toList.map .text)),
    ("rows", .list (s.rows.toList.map Row.toDocument))] ++ watched)

def ofParts? (name columns rows : Document) (watched : Option Document) : Option Sheet := do
  let watched ← match watched with
    | some d => d.texts?
    | none => some []
  return {
    columns := (← columns.texts?).toArray
    rows := (← (← rows.list?).mapM Row.ofDocument?).toArray
    name := ← name.text?
    watched := watched.toArray }

/-- Reads a sheet from its fields, whatever others there are, or from a list of their values. Nothing
is checked beyond the kinds of the values. -/
def ofDocument? : Document → Option Sheet
  | .fields items => do
    ofParts? (← items.lookup "name") (← items.lookup "columns") (← items.lookup "rows")
      (items.lookup "watchedCells")
  | .list [name, columns, rows] => ofParts? name columns rows none
  | .list [name, columns, rows, watched] => ofParts? name columns rows (some watched)
  | _ => none

end Sheet

end Spreadsheet
