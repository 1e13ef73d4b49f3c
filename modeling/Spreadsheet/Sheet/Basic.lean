import Spreadsheet.Evaluate
import Spreadsheet.Formula.Reads
import Spreadsheet.Seek

/-! A sheet: a table with a name and a list of watched references. Its edits keep exactly one cell per
column in every row; a sheet made by hand may be otherwise, and every reading of it copes with that. -/

namespace Spreadsheet

structure Sheet extends Table where
  name : String
  watched : Array String
  deriving DecidableEq

inductive SheetError
  | invalidReference (text : String)
  | outOfBounds (a : Address)
  | rowOutOfBounds (row : Nat)
  | unknownColumn (name : String)
  | duplicateColumn (name : String)
  | blankColumnName
  | seek (e : SeekError)
  deriving DecidableEq

def SheetError.message : SheetError → String
  | .invalidReference text => "Invalid cell reference: " ++ text
  | .outOfBounds a => "Cell " ++ a.toText ++ " is outside the sheet"
  | .rowOutOfBounds row => "Row " ++ row.repr ++ " is outside the sheet"
  | .unknownColumn name => "Unknown column: " ++ name
  | .duplicateColumn name => "Column already exists: " ++ name
  | .blankColumnName => "Column name must not be blank"
  | .seek e => e.message

namespace Sheet

def ofColumns (name : String) (columns : List String) : Sheet where
  columns := columns.toArray
  rows := #[]
  name := name
  watched := #[]

def empty : Sheet := ofColumns "" []

def letterColumns (count : Nat) : List String :=
  (List.range count).map Address.columnLetters

def ofLetters (name : String) (count : Nat) : Sheet :=
  ofColumns name (letterColumns count)

variable (s : Sheet)

def columnIndex? (name : String) : Option Nat :=
  s.columns.idxOf? name

def resolve (reference : String) : Except SheetError Address :=
  match Address.parseTrimmed? reference with
  | none => .error (.invalidReference reference)
  | some a => if s.grid.inBounds a then .ok a else .error (.outOfBounds a)

def cellAt (reference : String) : Except SheetError Content :=
  match s.resolve reference with
  | .error e => .error e
  | .ok a => match s.cell? a with
    | some c => .ok c
    | none => .error (.outOfBounds a)

def evaluate (a : Address) : Value :=
  match s.cell? a with
  | some c => s.grid.evaluate c
  | none => .null

def evaluateRef (reference : String) : Except SheetError Value :=
  (s.resolve reference).map s.evaluate

def evaluateInput (input : String) : Value :=
  s.grid.evaluate (.ofInput input)

def evaluateAll : List (List Value) :=
  (List.range s.rows.size).map fun row =>
    (List.range s.columns.size).map fun col => s.evaluate ⟨col, row⟩

def formula? (a : Address) : Option Expr := do
  let body ← (← s.cell? a).formulaBody?
  (Expr.parseBody body).toOption

def precedents (a : Address) : List Address :=
  match s.formula? a with
  | some e => e.references s.grid
  | none => []

def readsCell (a cell : Address) : Bool :=
  match s.formula? a with
  | some e => e.reads cell
  | none => false

end Sheet

end Spreadsheet
