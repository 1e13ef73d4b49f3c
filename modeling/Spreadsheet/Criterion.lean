import Spreadsheet.Grid
import Spreadsheet.Formula.Error

namespace Spreadsheet

inductive Comparison
  | greater
  | greaterEq
  | less
  | lessEq
  deriving DecidableEq

def Comparison.holds : Comparison → Binary64 → Binary64 → Bool
  | .greater, n, t => t < n
  | .greaterEq, n, t => t ≤ n
  | .less, n, t => n < t
  | .lessEq, n, t => n ≤ t

inductive Criterion
  | compare (comparison : Comparison) (threshold : Binary64)
  | equals (text : String)
  deriving DecidableEq

namespace Criterion

/-- A threshold that does not begin with a number makes every comparison false. -/
def threshold (cs : List Char) : Binary64 :=
  (Binary64.leadingOfText? (String.ofList cs)).getD .nan

def parse (s : String) : Criterion :=
  match Text.trimList s.toList with
  | '>' :: '=' :: cs => .compare .greaterEq (threshold cs)
  | '<' :: '=' :: cs => .compare .lessEq (threshold cs)
  | '>' :: cs => .compare .greater (threshold cs)
  | '<' :: cs => .compare .less (threshold cs)
  | '=' :: cs => .equals (String.ofList cs)
  | cs => .equals (String.ofList cs)

def accepts (criterion : Criterion) (cell : Option Content) : Bool :=
  match criterion with
  | .compare comparison t => match cell.bind Content.leadingNumber? with
    | some n => comparison.holds n t
    | none => false
-- An absent cell has the empty text.
  | .equals text => (cell.map Content.rawText).getD "" == text

end Criterion

def Range.counterpart (origin target : Range) (a : Address) : Address :=
  ⟨target.minCol + (a.col - origin.minCol), target.minRow + (a.row - origin.minRow)⟩

def Grid.sumIf (g : Grid) (condition : Range) (criterion : Criterion) (summed : Range) :
    Except EvalError Binary64 :=
  if summed.height = condition.height ∧ summed.width = condition.width then
    let hits := (g.cellsIn condition).filter fun a => criterion.accepts (g.cell a)
    .ok (hits.foldl (fun total a => total + g.referenceValue (condition.counterpart summed a)) 0)
  else .error .rangeMismatch

end Spreadsheet
