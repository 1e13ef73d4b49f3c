import Spreadsheet.Sheet.Basic

namespace Spreadsheet

structure SelectionStats where
  count : Nat
  sum : Option Binary64
  average : Option Binary64
  min : Option Binary64
  max : Option Binary64
  deriving DecidableEq

structure ColumnExtent where
  column : String
  min : Binary64
  max : Binary64
  deriving DecidableEq

namespace Sheet

variable (s : Sheet)

def shownValues (r : Range) : List Value :=
  ((s.grid.cellsIn r).map s.evaluate).filter (!·.isBlank)

def selectionStats (r : Range) : SelectionStats :=
  let values := s.shownValues r
  match values.filterMap Value.number? with
  | [] => ⟨values.length, none, none, none, none⟩
  | n :: ns =>
    let sum := Binary64.sum (n :: ns)
    { count := values.length
      sum := some sum.round2
      average := some (sum / .ofNat (n :: ns).length).round2
      min := some (ns.foldl .least n)
      max := some (ns.foldl .greatest n) }

def columnNumbers (name : String) : List Binary64 :=
  s.rows.toList.filterMap fun row => row[name]?.bind Content.number?

def columnExtent? (name : String) : Option ColumnExtent :=
  match s.columnNumbers name with
  | [] => none
  | n :: ns => some ⟨name, ns.foldl .least n, ns.foldl .greatest n⟩

def columnExtents : List ColumnExtent :=
  s.columns.toList.filterMap s.columnExtent?

end Sheet

end Spreadsheet
