import Spreadsheet.Sheet.Script

namespace Spreadsheet.InPlace

/-- A change to a sheet that may end in an error, which takes back nothing that was written before. -/
abbrev Action := EStateM SheetError Sheet

def setColumns (columns : Array String) : Action Unit :=
  modify fun s => { s with columns := columns }

def setRows (rows : Array Row) : Action Unit :=
  modify fun s => { s with rows := rows }

def setWatched (watched : Array String) : Action Unit :=
  modify fun s => { s with watched := watched }

def addRow : Action Nat := do
  let s ← get
  setRows (s.rows.push s.blankRow)
  return s.rows.size

def insertRow (index : Nat) : Action Unit := do
  let s ← get
  if s.rows.size < index then throw (.rowOutOfBounds index)
  setRows (s.rows.insertIdxIfInBounds index s.blankRow)

def deleteRow (index : Nat) : Action Unit := do
  let s ← get
  if s.rows.size ≤ index then throw (.rowOutOfBounds index)
  setRows (s.rows.eraseIdxIfInBounds index)

def checkName (name : String) : Action Unit := do
  if Text.trim name = "" then throw .blankColumnName
  if name ∈ (← get).columns then throw (.duplicateColumn name)

def addColumn (name : String) : Action Nat := do
  checkName name
  let s ← get
  setColumns (s.columns.push name)
  setRows (s.rows.map (·.insert name .empty))
  return s.columns.size

def insertColumn (after : Nat) : Action String := do
  let s ← get
  setColumns (s.columns.insertIdxIfInBounds (min (after + 1) s.columns.size) s.freshName)
  setRows (s.rows.map (·.insert s.freshName .empty))
  return s.freshName

def findColumn (name : String) : Action Nat := do
  match (← get).columnIndex? name with
  | some index => return index
  | none => throw (.unknownColumn name)

def renameColumn (old new : String) : Action Unit := do
  let index ← findColumn old
  if old ≠ new then
    checkName new
    let s ← get
    setColumns (s.columns.setIfInBounds index new)
    setRows (s.rows.map (Sheet.renameKey old new))

def deleteColumn (name : String) : Action Unit := do
  let index ← findColumn name
  let s ← get
  setColumns (s.columns.eraseIdxIfInBounds index)
  setRows (s.rows.map (·.erase name))

def setCell (a : Address) (content : Content) : Action Unit := do
  let s ← get
  match s.columns[a.col]?, s.rows[a.row]? with
  | some key, some row => setRows (s.rows.setIfInBounds a.row (row.insert key content))
  | _, _ => throw (.outOfBounds a)

def setCellRef (reference : String) (content : Content) : Action Address := do
  let a ← ofExcept ((← get).resolve reference)
  setCell a content
  return a

def clearRange (r : Range) : Action Unit := do
  let cells := (← get).grid.cellsIn r
  cells.forM fun a => try setCell a .empty catch _ => pure ()

def seekGoal (settings : Settings) (target : String) (goal : Binary64) (changing : String) :
    Action Binary64 := do
  let x ← ofExcept (((← get).seek settings target goal changing).mapError .seek)
  let _ ← setCellRef changing (.number x)
  return x

def normalize : Action Unit := do
  let s ← get
  setRows (s.rows.map (Sheet.normalizeRow s.columns))

def addWatch (reference : String) : Action Bool := do
  let key := Sheet.watchKey reference
  let s ← get
  if key = "" ∨ key ∈ s.watched then return false
  setWatched (s.watched.push key)
  return true

def removeWatch (reference : String) : Action Bool := do
  let key := Sheet.watchKey reference
  let s ← get
  setWatched (s.watched.filter (· != key))
  return key ∈ s.watched

def perform : Edit → Action Reply
  | .addRow => return .index (← addRow)
  | .insertRow index => do insertRow index; return .done
  | .deleteRow index => do deleteRow index; return .done
  | .addColumn name => return .index (← addColumn name)
  | .insertColumn after => return .name (← insertColumn after)
  | .renameColumn old new => do renameColumn old new; return .done
  | .deleteColumn name => do deleteColumn name; return .done
  | .setCell a content => do setCell a content; return .done
  | .setCellRef reference content => return .address (← setCellRef reference content)
  | .setInput reference input => return .address (← setCellRef reference (.ofInput input))
  | .clearRange r => do clearRange r; return .done
  | .seekGoal settings target goal changing =>
    return .number (← seekGoal settings target goal changing)
  | .normalize => do normalize; return .done
  | .addWatch reference => return .changed (← addWatch reference)
  | .removeWatch reference => return .changed (← removeWatch reference)

end Spreadsheet.InPlace
