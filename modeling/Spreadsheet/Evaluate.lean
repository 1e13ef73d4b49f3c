import Spreadsheet.Criterion
import Spreadsheet.Formula.Parser
import Spreadsheet.Function
import Spreadsheet.Lookup
import Spreadsheet.Number.Rounding
import Spreadsheet.Text.UpperCase

/-! The value of a cell. A formula is put into capitals, parsed and evaluated against a grid. A
reference outside a function stands for the number that a resolver gives, by default the number that
leads the content of the cell, so a formula elsewhere is not evaluated. -/

namespace Spreadsheet

inductive Failure
  | fault (e : EvalError)
  | shown (e : CellError)
  deriving DecidableEq

def Failure.ofShown {α : Type} (x : Except CellError α) : Except Failure α :=
  x.mapError .shown

def Failure.ofFault {α : Type} (x : Except EvalError α) : Except Failure α :=
  x.mapError .fault

def Failure.badArguments {α : Type} (function problem : String) : Except Failure α :=
  .error (.fault (.badArguments function problem))

/-- Both values, or the failure that takes precedence: a fault over an error shown, else the first. -/
def Failure.both {α β : Type} : Except Failure α → Except Failure β → Except Failure (α × β)
  | .ok x, .ok y => .ok (x, y)
  | .error (.fault e), _ => .error (.fault e)
  | _, .error (.fault e) => .error (.fault e)
  | .error (.shown e), _ => .error (.shown e)
  | .ok _, .error (.shown e) => .error (.shown e)

def Scalar.toNumber : Scalar → Except Failure Binary64
  | .number n => .ok n
  | .text s => match Binary64.ofText? s with
    | some n => .ok n
    | none => .error (.fault (.notANumber s))

def Grid.found (g : Grid) (a : Address) : Scalar :=
  match g.cell a with
  | none => .number 0
-- A formula in a cell is not evaluated.
  | some c => if c.isFormula then .number 0 else c.literal?.getD (.number 0)

structure Argument where
  expr : Expr
  value : Except Failure Scalar

namespace Argument

def range? (a : Argument) : Option Range :=
  match a.expr with
  | .range r => some r
  | .cell c => some (.single c)
  | _ => none

def range (function : String) (a : Argument) : Except Failure Range :=
  match a.range? with
  | some r => .ok r
  | none => Failure.badArguments function "expects a range argument"

def number (a : Argument) : Except Failure Binary64 :=
  a.value.bind Scalar.toNumber

def text (a : Argument) : Except Failure String :=
  a.value.map Scalar.toText

def position (function : String) (a : Argument) : Except Failure Nat := do
  let n ← a.number
  if !n.isFinite || n < 0 then Failure.badArguments function "position must be a positive number"
  else return n.toIndex

def key (g : Grid) (a : Argument) : Except Failure String :=
  match a.expr, a.text with
-- Of a cell its own text, not the number that it stands for.
  | .cell c, _ => .ok (g.found c).toText
  | _, .error (.fault _) => .error (.shown .error)
  | _, t => t

def numbers (g : Grid) (a : Argument) : Except Failure (List Binary64) :=
  match a.range? with
  | some r => .ok (g.numbersIn r)
  | none => a.number.map ([·])

end Argument

namespace Function

variable (g : Grid)

def callAggregate (kind : Aggregate) (args : List Argument) : Except Failure Scalar := do
  if args.isEmpty then
    Failure.badArguments (Function.aggregate kind).name "expects at least one argument"
  else
    let values ← args.mapM (·.numbers g)
    return .number (kind.apply values.flatten)

def callSumIf (condition criterion : Argument) (summed : Option Argument) :
    Except Failure Scalar := do
  let condition ← condition.range "SUMIF"
  let criterion := Criterion.parse (← criterion.text)
  let summed ← match summed with
    | some a => a.range "SUMIF"
    | none => .ok condition
  return .number (← Failure.ofFault (g.sumIf condition criterion summed))

/-- Only exact matches are found; the fourth argument must have a value and has no effect. -/
def callVlookup (key table column : Argument) (approximate : Option Argument) :
    Except Failure Scalar := do
  let key ← key.key g
  let table ← table.range "VLOOKUP"
  let column ← column.position "VLOOKUP"
  let _ ← approximate.mapM Argument.text
  return g.found (← Failure.ofShown (g.vlookup key table column))

def callIndex (range row : Argument) (column : Option Argument) : Except Failure Scalar := do
  let range ← range.range "INDEX"
  let row ← row.position "INDEX"
  let column ← match column with
    | some a => a.position "INDEX"
    | none => .ok 1
  return g.found (← Failure.ofShown (g.index range row column))

def callMatch (key range : Argument) (kind : Option Argument) : Except Failure Scalar := do
  let key ← key.key g
  let range ← range.range "MATCH"
  let kind ← match kind with
    | some a => a.number
    | none => .ok 1
  if kind.same (-1) || kind.same 0 || kind.same 1 then
    return .number (.ofNat (← Failure.ofShown (g.matchPosition key range (kind.same (-1)))))
  else Failure.badArguments "MATCH" "match type must be -1, 0 or 1"

def call : Function → List Argument → Except Failure Scalar
  | .aggregate kind, args => callAggregate g kind args
  | .sumIf, [condition, criterion] => callSumIf g condition criterion none
  | .sumIf, [condition, criterion, summed] => callSumIf g condition criterion (some summed)
  | .sumIf, _ => Failure.badArguments "SUMIF" "expects 2 or 3 arguments"
  | .vlookup, [key, table, column] => callVlookup g key table column none
  | .vlookup, [key, table, column, approximate] => callVlookup g key table column (some approximate)
  | .vlookup, _ => Failure.badArguments "VLOOKUP" "expects 3 or 4 arguments"
  | .index, [range, row] => callIndex g range row none
  | .index, [range, row, column] => callIndex g range row (some column)
  | .index, _ => Failure.badArguments "INDEX" "expects 2 or 3 arguments"
  | .match, [key, range] => callMatch g key range none
  | .match, [key, range, kind] => callMatch g key range (some kind)
  | .match, _ => Failure.badArguments "MATCH" "expects 2 or 3 arguments"

end Function

namespace Expr

mutual

def eval (g : Grid) (resolve : Address → Binary64) : Expr → Except Failure Scalar
  | .number n => .ok (.number n)
  | .text s => .ok (.text s)
  | .cell a => .ok (.number (resolve a))
  | .range r => .error (.fault (.bareRange r))
  | .neg e => ((eval g resolve e).bind Scalar.toNumber).map fun n => .number (-n)
  | .binary op l r =>
    let left := (eval g resolve l).bind Scalar.toNumber
    let right := (eval g resolve r).bind Scalar.toNumber
    (Failure.both left right).map fun (x, y) => .number (op.apply x y)
  | .call f args => match Function.ofName? f with
    | some f => f.call g (evalArgs g resolve args)
    | none => .error (.fault (.unknownFunction f))

def evalArgs (g : Grid) (resolve : Address → Binary64) : List Expr → List Argument
  | [] => []
  | e :: es => ⟨e, eval g resolve e⟩ :: evalArgs g resolve es

end

def parseBody (body : String) : Except SyntaxError Expr :=
  parse (Text.upperCase (Text.trim body)).toList

end Expr

def Value.ofResult : Except Failure Scalar → Value
  | .ok (.number n) => if n.isFinite then .number n.round4 else .error .error
  | .ok (.text s) => .text s
  | .error (.shown e) => .error e
  | .error (.fault _) => .error .error

def Grid.evaluateWith (g : Grid) (resolve : Address → Binary64) (c : Content) : Value :=
  match c.formulaBody? with
  | none => .ofLiteral c
  | some body => match Expr.parseBody body with
    | .ok e => .ofResult (e.eval g resolve)
    | .error _ => .error .error

def Grid.evaluate (g : Grid) (c : Content) : Value :=
  g.evaluateWith g.referenceValue c

end Spreadsheet
