import Spreadsheet.Number.Binary64

namespace Spreadsheet

/-- Numbers that are written as integers are kept apart, and so are dates and times, as texts. -/
inductive Document
  | null
  | bool (b : Bool)
  | integer (n : Int)
  | number (x : Binary64)
  | text (s : String)
  | time (s : String)
  | list (items : List Document)
  | fields (items : List (String × Document))
  deriving Inhabited

def Binary64.ofInt (n : Int) : Binary64 :=
  .ofQuotient (n < 0) (n.natAbs * one) 1

namespace Document

def text? : Document → Option String
  | .text s => some s
  | _ => none

def number? : Document → Option Binary64
  | .integer n => some (.ofInt n)
  | .number x => some x
  | _ => none

def list? : Document → Option (List Document)
  | .list items => some items
  | _ => none

def fields? : Document → Option (List (String × Document))
  | .fields items => some items
  | _ => none

def texts? (d : Document) : Option (List String) :=
  d.list?.bind (·.mapM text?)

end Document

end Spreadsheet
