import Spreadsheet.Number.Binary64

namespace Spreadsheet

inductive Aggregate
  | sum
  | average
  | min
  | max
  | count
  deriving DecidableEq

def Aggregate.apply (kind : Aggregate) (values : List Binary64) : Binary64 :=
  if values = [] then 0
  else match kind with
    | .sum => .sum values
    | .average => .sum values / .ofNat values.length
    | .min => values.foldl .least (.infinite false)
    | .max => values.foldl .greatest (.infinite true)
    | .count => .ofNat values.length

inductive Function
  | aggregate (kind : Aggregate)
  | sumIf
  | vlookup
  | index
  | match
  deriving DecidableEq

namespace Function

structure Entry where
  name : String
  function : Function
  description : String

def entries : List Entry :=
  [⟨"SUM", .aggregate .sum, "Sum of numeric values"⟩,
   ⟨"AVG", .aggregate .average, "Average of numeric values"⟩,
   ⟨"AVERAGE", .aggregate .average, "Average of numeric values"⟩,
   ⟨"MIN", .aggregate .min, "Minimum numeric value"⟩,
   ⟨"MAX", .aggregate .max, "Maximum numeric value"⟩,
   ⟨"COUNT", .aggregate .count, "Count of numeric values"⟩,
   ⟨"SUMIF", .sumIf, "Sum values whose condition cell matches a criterion"⟩,
   ⟨"VLOOKUP", .vlookup, "Find a row by its first column and return another column"⟩,
   ⟨"INDEX", .index, "Value at a 1-based row/column offset inside a range"⟩,
   ⟨"MATCH", .match, "1-based position of a value in a range's first column"⟩]

def find? (name : String) : Option Entry :=
  entries.find? (·.name == name)

def ofName? (name : String) : Option Function :=
  (find? name).map (·.function)

def name (f : Function) : String :=
  ((entries.find? (·.function == f)).map (·.name)).getD "?"

end Function

end Spreadsheet
