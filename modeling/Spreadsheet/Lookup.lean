import Spreadsheet.Grid
import Spreadsheet.Value

namespace Spreadsheet.Grid

variable (g : Grid)

def firstColumn (r : Range) : List Address :=
  (clip r.minRow r.maxRow g.rowCount).map fun row => ⟨r.minCol, row⟩

def hits (key : String) (r : Range) : List Address :=
  (g.firstColumn r).filter fun a => g.rawText a == key

def inside (a : Address) : Except CellError Address :=
  if g.inBounds a then .ok a else .error .reference

def vlookup (key : String) (table : Range) (column : Nat) : Except CellError Address :=
  if column = 0 then .error .reference
  else match (g.hits key table).head? with
    | none => .error .notAvailable
    | some hit => g.inside ⟨table.minCol + (column - 1), hit.row⟩

def index (r : Range) (row column : Nat) : Except CellError Address :=
  if row = 0 ∨ column = 0 ∨ r.height < row ∨ r.width < column then .error .reference
  else g.inside ⟨r.minCol + (column - 1), r.minRow + (row - 1)⟩

def matchPosition (key : String) (r : Range) (last : Bool) : Except CellError Nat :=
  match if last then (g.hits key r).getLast? else (g.hits key r).head? with
  | none => .error .notAvailable
  | some hit => .ok (hit.row - r.minRow + 1)

end Spreadsheet.Grid
