import Spreadsheet.Sheet.Basic

namespace Spreadsheet

structure WatchEntry where
  reference : String
  value : Value
  formula : Option String

namespace Sheet

variable (s : Sheet)

def watchKey (reference : String) : String :=
  Text.upperCase (Text.trim reference)

def addWatch? (reference : String) : Option Sheet :=
  let key := watchKey reference
  if key = "" ∨ key ∈ s.watched then none
  else some { s with watched := s.watched.push key }

def removeWatch? (reference : String) : Option Sheet :=
  let key := watchKey reference
  if key ∈ s.watched then some { s with watched := s.watched.filter (· != key) } else none

def watchEntry (reference : String) : WatchEntry :=
  match s.resolve reference with
  | .error _ => ⟨reference, .error .reference, none⟩
  | .ok a => ⟨reference, s.evaluate a, ((s.cell? a).filter Content.isFormula).map Content.rawText⟩

def watchEntries : List WatchEntry :=
  s.watched.toList.map s.watchEntry

end Sheet

end Spreadsheet
