import Spreadsheet.Number.Binary64
import Spreadsheet.Address

namespace Spreadsheet

inductive Operator
  | add
  | sub
  | mul
  | div
  deriving DecidableEq

def Operator.apply : Operator → Binary64 → Binary64 → Binary64
  | .add, x, y => x + y
  | .sub, x, y => x - y
  | .mul, x, y => x * y
  | .div, x, y => x / y

inductive Expr
  | number (n : Binary64)
  | text (s : String)
  | cell (a : Address)
  | range (r : Range)
  | call (function : String) (args : List Expr)
  | neg (e : Expr)
  | binary (op : Operator) (left right : Expr)

end Spreadsheet
