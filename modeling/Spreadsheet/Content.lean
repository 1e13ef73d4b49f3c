import Spreadsheet.Number.Shortest

namespace Spreadsheet

def Binary64.cellText (n : Binary64) : String :=
  match n with
  | .nan => "#NAN!"
  | .infinite _ => "#INF!"
  | .finite .. => if n.isZero then "0" else n.toText

/-- A formula is stored as its text, the leading `=` included; evaluated values are never stored. -/
inductive Content
  | empty
  | number (n : Binary64)
  | text (s : String)
  deriving DecidableEq

namespace Content

def ofInput (input : String) : Content :=
  match Text.trimList input.toList with
  | [] => .empty
  | '=' :: _ => .text input
  | cs => match (Binary64.read? cs).filter Binary64.isFinite with
    | some n => .number n
    | none => .text input

def isEmpty : Content → Bool
  | .empty => true
  | .text s => s == ""
  | .number _ => false

def formulaBody? : Content → Option String
  | .text s => match s.toList with
    | '=' :: body => some (String.ofList body)
    | _ => none
  | _ => none

def isFormula (c : Content) : Bool :=
  c.formulaBody?.isSome

def number? : Content → Option Binary64
  | .empty => none
  | .number n => if n.isFinite then some n else none
  | .text s => Binary64.finiteOfText? s

def leadingNumber? : Content → Option Binary64
  | .empty => none
  | .number n => if n.isFinite then some n else none
  | .text s => (Binary64.leadingOfText? s).filter Binary64.isFinite

def rawText : Content → String
  | .empty => ""
  | .number n => n.cellText
  | .text s => s

theorem isFinite_of_number? {c : Content} {n : Binary64} (h : c.number? = some n) :
    n.isFinite = true := by
  cases c with
  | empty => cases h
  | number m =>
    obtain ⟨hm, hmn⟩ := Option.ite_none_right_eq_some.1 h
    cases hmn
    exact hm
  | text s => exact (Option.filter_eq_some_iff.1 h).2

theorem isFinite_of_leadingNumber? {c : Content} {n : Binary64} (h : c.leadingNumber? = some n) :
    n.isFinite = true := by
  cases c with
  | empty => cases h
  | number m => exact isFinite_of_number? (c := .number m) h
  | text s => exact (Option.filter_eq_some_iff.1 h).2

end Content

end Spreadsheet
