import Spreadsheet.Address
import Spreadsheet.Content

namespace Spreadsheet

/-- A grid as formulas see it. Cells may be absent, even inside the grid. -/
structure Grid where
  rowCount : Nat
  colCount : Nat
  cell : Address → Option Content

namespace Grid

def inBounds (g : Grid) (a : Address) : Bool :=
  a.row < g.rowCount && a.col < g.colCount

def clip (lo hi len : Nat) : List Nat :=
  List.range' lo (min (hi + 1) len - lo)

def cellsIn (g : Grid) (r : Range) : List Address :=
  Range.product (clip r.minRow r.maxRow g.rowCount) (clip r.minCol r.maxCol g.colCount)

def leadingNumber? (g : Grid) (a : Address) : Option Binary64 :=
  (g.cell a).bind Content.leadingNumber?

def numbersIn (g : Grid) (r : Range) : List Binary64 :=
  (g.cellsIn r).filterMap g.leadingNumber?

def rawText (g : Grid) (a : Address) : String :=
  ((g.cell a).map Content.rawText).getD ""

def referenceValue (g : Grid) (a : Address) : Binary64 :=
  (g.leadingNumber? a).getD 0

end Grid

end Spreadsheet
