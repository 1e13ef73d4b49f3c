import Spreadsheet.Sheet.Edit
import Spreadsheet.Sheet.Watch

namespace Spreadsheet

inductive Edit
  | addRow
  | insertRow (index : Nat)
  | deleteRow (index : Nat)
  | addColumn (name : String)
  | insertColumn (after : Nat)
  | renameColumn (old new : String)
  | deleteColumn (name : String)
  | setCell (a : Address) (content : Content)
  | setCellRef (reference : String) (content : Content)
  | setInput (reference input : String)
  | clearRange (r : Range)
  | seekGoal (settings : Settings) (target : String) (goal : Binary64) (changing : String)
  | normalize
  | addWatch (reference : String)
  | removeWatch (reference : String)

inductive Reply
  | done
  | index (n : Nat)
  | name (s : String)
  | address (a : Address)
  | number (x : Binary64)
  | changed (b : Bool)
  deriving DecidableEq

namespace Sheet

def apply (s : Sheet) : Edit → Except SheetError (Sheet × Reply)
  | .addRow => .ok (s.addRow, .index s.rows.size)
  | .insertRow index => (s.insertRow index).map (·, .done)
  | .deleteRow index => (s.deleteRow index).map (·, .done)
  | .addColumn name => (s.addColumn name).map (·, .index s.columns.size)
  | .insertColumn after => .ok (s.insertColumn after, .name s.freshName)
  | .renameColumn old new => (s.renameColumn old new).map (·, .done)
  | .deleteColumn name => (s.deleteColumn name).map (·, .done)
  | .setCell a content => (s.setCell a content).map (·, .done)
  | .setCellRef reference content =>
    (s.setCellRef reference content).map fun (s, a) => (s, .address a)
  | .setInput reference input => (s.setInput reference input).map fun (s, a) => (s, .address a)
  | .clearRange r => .ok (s.clearRange r, .done)
  | .seekGoal settings target goal changing =>
    (s.seekGoal settings target goal changing).map fun (s, x) => (s, .number x)
  | .normalize => .ok (s.normalize, .done)
  | .addWatch reference => .ok (match s.addWatch? reference with
    | some t => (t, .changed true)
    | none => (s, .changed false))
  | .removeWatch reference => .ok (match s.removeWatch? reference with
    | some t => (t, .changed true)
    | none => (s, .changed false))

def edit (s : Sheet) (e : Edit) : Sheet :=
  match s.apply e with
  | .ok (t, _) => t
  | .error _ => s

def run (s : Sheet) (es : List Edit) : Sheet :=
  es.foldl edit s

end Sheet

end Spreadsheet
