import Spreadsheet.Formula.Expr
import Spreadsheet.Grid

namespace Spreadsheet.Expr

mutual

/-- Ranges are clipped to the grid, single addresses are not. -/
def references (g : Grid) : Expr → List Address
  | .number _ | .text _ => []
  | .cell a => [a]
  | .range r => g.cellsIn r
  | .call _ args => argReferences g args
  | .neg e => references g e
  | .binary _ l r => references g l ++ references g r

def argReferences (g : Grid) : List Expr → List Address
  | [] => []
  | e :: es => references g e ++ argReferences g es

end

mutual

def reads (a : Address) : Expr → Bool
  | .number _ | .text _ => false
  | .cell b => b == a
  | .range r => r.contains a
  | .call _ args => argReads a args
  | .neg e => reads a e
  | .binary _ l r => reads a l || reads a r

def argReads (a : Address) : List Expr → Bool
  | [] => false
  | e :: es => reads a e || argReads a es

end

end Spreadsheet.Expr
