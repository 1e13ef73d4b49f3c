import Spreadsheet.Document
import Spreadsheet.Number.Secant

namespace Spreadsheet.Settings

def count? : Document → Option Nat
  | .integer (.ofNat n) => if n < Nat.pow 2 64 then some n else none
  | _ => none

def orElse {α : Type} (read : Document → Option α) (given : Option Document) (default : α) :
    Option α :=
  match given with
  | some d => read d
  | none => some default

def ofParts? (maxIterations epsilon minSlope : Option Document) : Option Settings := do
  let default : Settings := {}
  return {
    maxIterations := ← orElse count? maxIterations default.maxIterations
    epsilon := ← orElse Document.number? epsilon default.epsilon
    minSlope := ← orElse Document.number? minSlope default.minSlope }

def ofDocument? : Document → Option Settings
  | .fields items =>
    ofParts? (items.lookup "max_iterations") (items.lookup "epsilon") (items.lookup "min_slope")
  | .list items =>
    if items.length ≤ 3 then ofParts? items[0]? items[1]? items[2]? else none
  | _ => none

end Spreadsheet.Settings
