import Spreadsheet.Sheet.Basic

/-! Changes to the columns, rows and cells of a sheet. An edit that cannot be made is an error and
gives no sheet, so nothing is left half done. -/

namespace Spreadsheet

namespace Sheet

variable (s : Sheet)

def blankRow : Row :=
  s.columns.foldl (fun row name => row.insert name .empty) ∅

def addRow : Sheet :=
  { s with rows := s.rows.push s.blankRow }

def insertRow (index : Nat) : Except SheetError Sheet :=
  if h : index ≤ s.rows.size then
    .ok { s with rows := s.rows.insertIdx index s.blankRow h }
  else .error (.rowOutOfBounds index)

def deleteRow (index : Nat) : Except SheetError Sheet :=
  if h : index < s.rows.size then .ok { s with rows := s.rows.eraseIdx index h }
  else .error (.rowOutOfBounds index)

def checkName (name : String) : Except SheetError Unit :=
  if Text.trim name = "" then .error .blankColumnName
  else if name ∈ s.columns then .error (.duplicateColumn name)
  else .ok ()

def withColumn (position : Nat) (name : String) : Sheet :=
  { s with
    columns := s.columns.insertIdxIfInBounds position name
    rows := s.rows.map (·.insert name .empty) }

def addColumn (name : String) : Except SheetError Sheet :=
  match s.checkName name with
  | .error e => .error e
  | .ok () => .ok (s.withColumn s.columns.size name)

def candidate : Nat → String
  | 0 => "New Column"
  | n + 1 => "New Column " ++ (n + 1).repr

/-- The first candidate from `n` on that is not taken; with `fuel` columns one of the first
`fuel + 1` is free. -/
def firstFree (taken : Array String) (n : Nat) : Nat → String
  | 0 => candidate n
  | fuel + 1 => if candidate n ∈ taken then firstFree taken (n + 1) fuel else candidate n

def freshName : String :=
  firstFree s.columns 0 s.columns.size

def insertColumn (after : Nat) : Sheet :=
  s.withColumn (min (after + 1) s.columns.size) s.freshName

def renameKey (old new : String) (row : Row) : Row :=
  (row.erase old).insert new (row[old]?.getD .empty)

def renameColumn (old new : String) : Except SheetError Sheet :=
  match s.columnIndex? old with
  | none => .error (.unknownColumn old)
  | some index =>
    if old = new then .ok s
    else match s.checkName new with
      | .error e => .error e
      | .ok () => .ok { s with
          columns := s.columns.setIfInBounds index new
          rows := s.rows.map (renameKey old new) }

def deleteColumn (name : String) : Except SheetError Sheet :=
  match s.columnIndex? name with
  | none => .error (.unknownColumn name)
  | some index => .ok { s with
      columns := s.columns.eraseIdxIfInBounds index
      rows := s.rows.map (·.erase name) }

def setCell (a : Address) (content : Content) : Except SheetError Sheet :=
  match s.set? a content with
  | some t => .ok { s with toTable := t }
  | none => .error (.outOfBounds a)

def setCellRef (reference : String) (content : Content) : Except SheetError (Sheet × Address) :=
  match s.resolve reference with
  | .error e => .error e
  | .ok a => (s.setCell a content).map (·, a)

def setInput (reference input : String) : Except SheetError (Sheet × Address) :=
  s.setCellRef reference (.ofInput input)

def clearRange (r : Range) : Sheet :=
  (s.grid.cellsIn r).foldl (fun s a => match s.setCell a .empty with
    | .ok s => s
    | .error _ => s) s

def seekGoal (settings : Settings) (target : String) (goal : Binary64) (changing : String) :
    Except SheetError (Sheet × Binary64) :=
  match s.seek settings target goal changing with
  | .error e => .error (.seek e)
  | .ok x => (s.setCellRef changing (.number x)).map fun (s, _) => (s, x)

def normalizeRow (columns : Array String) (row : Row) : Row :=
  columns.foldl (fun row name => row.insertIfNew name .empty)
    (row.filter fun name _ => columns.contains name)

def normalize : Sheet :=
  { s with rows := s.rows.map (normalizeRow s.columns) }

end Sheet

end Spreadsheet
