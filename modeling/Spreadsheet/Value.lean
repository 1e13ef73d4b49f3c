import Spreadsheet.Content

namespace Spreadsheet

inductive CellError
  | error
  | notAvailable
  | reference
  deriving DecidableEq

def CellError.code : CellError → String
  | .error => "#ERROR!"
  | .notAvailable => "#N/A"
  | .reference => "#REF!"

inductive Value
  | null
  | number (n : Binary64)
  | text (s : String)
  | error (e : CellError)
  deriving DecidableEq

namespace Value

def number? : Value → Option Binary64
  | .number n => some n
  | .text s => Binary64.finiteOfText? s
  | .null | .error _ => none

def isError : Value → Bool
  | .error _ => true
  | _ => false

def isBlank : Value → Bool
  | .null => true
  | .text s => s == ""
  | _ => false

def display : Value → String
  | .null => ""
  | .number n => n.cellText
  | .text s => s
  | .error e => e.code

end Value

inductive Scalar
  | number (n : Binary64)
  | text (s : String)
  deriving DecidableEq

def Scalar.toValue : Scalar → Value
  | .number n => .number n
  | .text s => .text s

def Scalar.toText : Scalar → String
  | .number n => n.cellText
  | .text s => s

/-- A text as a literal. It is a number only if the number is written just so, which `042` and `4e1`
are not; the words for truth and falsity count as 1 and 0. -/
def Scalar.ofText (s : String) : Scalar :=
  let trimmed := Text.trimList s.toList
  match (Binary64.read? trimmed).filter fun n => n.isFinite && n.cellText.toList == trimmed with
  | some n => .number n
  | none =>
    let word := String.ofList (trimmed.map Char.toLower)
    if word = "true" then .number 1
    else if word = "false" then .number 0
    else .text s

def Content.literal? : Content → Option Scalar
  | .empty => none
  | .number n => some (.number n)
  | .text s => some (.ofText s)

def Value.ofLiteral (c : Content) : Value :=
  match c.literal? with
  | some s => s.toValue
  | none => .null

end Spreadsheet
