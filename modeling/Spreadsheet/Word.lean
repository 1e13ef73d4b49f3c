import Spreadsheet.Criterion
import Spreadsheet.Lookup

/-! Rows and columns computed in words of 64 bits, step by step. A step whose exact result is no word
gives nothing, and then neither does what is computed from it. -/

namespace Spreadsheet.Word

def ofNat? (n : Nat) : Option Nat :=
  if n ≤ Address.limit then some n else none

def add? (m n : Nat) : Option Nat := ofNat? (m + n)

def mul? (m n : Nat) : Option Nat := ofNat? (m * n)

def sub? (m n : Nat) : Option Nat :=
  if n ≤ m then some (m - n) else none

def appendLetter? (n : Nat) (c : Char) : Option Nat := do
  if Address.isCapital c then add? (← mul? n 26) (c.toNat - 'A'.toNat + 1) else none

def columnOfLetters? (cs : List Char) : Option Nat := do
  if cs = [] then none
  sub? (← cs.foldlM appendLetter? 0) 1

def toText? (a : Address) : Option String := do
  return Address.columnLetters a.col ++ Nat.repr (← add? a.row 1)

def rangeText? (r : Range) : Option String := do
  return (← toText? r.start) ++ ":" ++ (← toText? r.stop)

def height? (r : Range) : Option Nat := do
  add? (← sub? r.maxRow r.minRow) 1

def width? (r : Range) : Option Nat := do
  add? (← sub? r.maxCol r.minCol) 1

def span (start stop : Nat) : List Nat :=
  List.range' start (stop - start)

def clip? (lo hi len : Nat) : Option (List Nat) := do
  if len ≤ lo then return []
  return span lo (← add? (min hi (← sub? len 1)) 1)

def cellsIn? (g : Grid) (r : Range) : Option (List Address) := do
  return Range.product (← clip? r.minRow r.maxRow g.rowCount) (← clip? r.minCol r.maxCol g.colCount)

def counterpart? (origin target : Range) (a : Address) : Option Address := do
  return ⟨← add? target.minCol (← sub? a.col origin.minCol),
    ← add? target.minRow (← sub? a.row origin.minRow)⟩

def sumIf? (g : Grid) (condition : Range) (criterion : Criterion) (summed : Range) :
    Option (Except EvalError Binary64) := do
  if (← height? summed) ≠ (← height? condition) ∨ (← width? summed) ≠ (← width? condition) then
    return .error .rangeMismatch
  let total ← (← cellsIn? g condition).foldlM (fun total a => do
    if criterion.accepts (g.cell a) then
      return total + g.referenceValue (← counterpart? condition summed a)
    else return total) 0
  return .ok total

def firstColumn? (g : Grid) (r : Range) : Option (List Address) := do
-- The last row of a grid without rows counts as row zero.
  let last := min r.maxRow (g.rowCount - 1)
  if r.minRow < g.rowCount then
    return (span r.minRow (← add? last 1)).map fun row => ⟨r.minCol, row⟩
  else return []

def hits? (g : Grid) (key : String) (r : Range) : Option (List Address) := do
  return (← firstColumn? g r).filter fun a => g.rawText a == key

/-- The sum of the first column and the column asked for may be no word, and is then refused as a
column outside the grid is. -/
def vlookup? (g : Grid) (key : String) (table : Range) (column : Nat) :
    Option (Except CellError Address) := do
  if column = 0 then return .error .reference
  match (← hits? g key table).head? with
  | none => return .error .notAvailable
  | some hit =>
    match add? table.minCol (← sub? column 1) with
    | none => return .error .reference
    | some col => return g.inside ⟨col, hit.row⟩

def index? (g : Grid) (r : Range) (row column : Nat) : Option (Except CellError Address) := do
  if row = 0 ∨ column = 0 ∨ (← height? r) < row ∨ (← width? r) < column then
    return .error .reference
  return g.inside ⟨← sub? (← add? r.minCol column) 1, ← sub? (← add? r.minRow row) 1⟩

def matchPosition? (g : Grid) (key : String) (r : Range) (last : Bool) :
    Option (Except CellError Nat) := do
  let hits ← hits? g key r
  match if last then hits.getLast? else hits.head? with
  | none => return .error .notAvailable
  | some hit => return .ok (← add? (← sub? hit.row r.minRow) 1)

end Spreadsheet.Word
