import Spreadsheet.Evaluate
import Spreadsheet.Number.Secant
import Spreadsheet.Table

namespace Spreadsheet

inductive SeekError
  | invalidReference
  | targetOutOfBounds
  | changingOutOfBounds
  | targetNotFormula
  | changingIsFormula
  | nonFiniteGoal
  | noConvergence (last : Binary64)
  deriving DecidableEq

namespace SeekError

def message : SeekError → String
  | .invalidReference => "Invalid cell reference"
  | .targetOutOfBounds => "Target cell out of bounds"
  | .changingOutOfBounds => "Changing cell out of bounds"
  | .targetNotFormula => "Target cell must contain a formula"
  | .changingIsFormula => "Changing cell must not contain a formula"
  | .nonFiniteGoal => "Target value must be a finite number"
  | .noConvergence _ => "Could not converge"

def lastValue : SeekError → Binary64
  | .noConvergence last => last
  | _ => 0

end SeekError

namespace Table

/-- What a formula shows with a number in the changing cell; anything but a number counts as zero. -/
def trialValue (t : Table) (formula : Content) (changing : Address) (x : Binary64) : Binary64 :=
  match Shadow.ofTable? t changing.row with
  | none => 0
  | some shadow =>
    let shadow := (shadow.set? changing.col (.number x)).getD shadow
    ((shadow.grid.evaluate formula).number?).getD 0

def solve (t : Table) (settings : Settings) (formula : Content) (goal : Binary64)
    (changing : Address) : Except SeekError Binary64 :=
  let seed := ((t.cell? changing).bind Content.number?).getD 0
  (Secant.solve settings (fun x => t.trialValue formula changing x - goal) seed).mapError
    .noConvergence

def seek (t : Table) (settings : Settings) (target : String) (goal : Binary64) (changing : String) :
    Except SeekError Binary64 :=
  match Address.parse? target, Address.parse? changing with
  | some target, some changing =>
    let formula := (t.cell? target).getD .empty
    if !t.grid.inBounds target then .error .targetOutOfBounds
    else if !t.grid.inBounds changing then .error .changingOutOfBounds
    else if !formula.isFormula then .error .targetNotFormula
    else if ((t.cell? changing).map Content.isFormula).getD false then .error .changingIsFormula
    else if !goal.isFinite then .error .nonFiniteGoal
    else t.solve settings formula goal changing
  | _, _ => .error .invalidReference

end Table

end Spreadsheet
