import Spreadsheet.Number.Binary64
import Spreadsheet.Text.Blank

namespace Spreadsheet

structure Numeral where
  negative : Bool
  whole : List Char
  fraction : List Char
  exponent : Int
  deriving DecidableEq

namespace Numeral

def digitsValue (ds : List Char) : Nat :=
  Nat.ofDigitChars 10 ds 0

def value (n : Numeral) : Binary64 :=
  .ofDecimal n.negative (digitsValue (n.whole ++ n.fraction)) (n.exponent - n.fraction.length)

def splitSign : List Char → Bool × List Char
  | '-' :: cs => (true, cs)
  | '+' :: cs => (false, cs)
  | cs => (false, cs)

def splitDigits (cs : List Char) : List Char × List Char :=
  (cs.takeWhile Char.isDigit, cs.dropWhile Char.isDigit)

def splitFraction : List Char → List Char × List Char
  | '.' :: cs => splitDigits cs
  | cs => ([], cs)

def splitExponent (cs : List Char) : Int × List Char :=
  match cs with
  | [] => (0, cs)
  | mark :: ds =>
    if mark = 'e' ∨ mark = 'E' then
      let (negative, ds) := splitSign ds
      let (ds, rest) := splitDigits ds
-- A mark without a digit is no exponent.
      if ds = [] then (0, cs)
      else (if negative then -(digitsValue ds : Int) else digitsValue ds, rest)
    else (0, cs)

/-- The longest numeral that the text begins with, and what follows it. -/
def scan (cs : List Char) : Option (Numeral × List Char) :=
  let (negative, cs) := splitSign cs
  let (whole, cs) := splitDigits cs
  let (fraction, cs) := splitFraction cs
  if whole = [] ∧ fraction = [] then none
  else
    let (exponent, cs) := splitExponent cs
    some (⟨negative, whole, fraction, exponent⟩, cs)

end Numeral

namespace Binary64

def ofName? (negative : Bool) (name : List Char) : Option Binary64 :=
  let name := String.ofList (name.map Char.toLower)
  if name = "inf" ∨ name = "infinity" then some (.infinite negative)
  else if name = "nan" then some .nan
  else none

def read? (cs : List Char) : Option Binary64 :=
  match Numeral.scan cs with
  | some (n, []) => some n.value
  | _ =>
    let (negative, name) := Numeral.splitSign cs
    ofName? negative name

def ofText? (s : String) : Option Binary64 :=
  read? (Text.trimList s.toList)

def finiteOfText? (s : String) : Option Binary64 :=
  (ofText? s).filter isFinite

def leadingOfText? (s : String) : Option Binary64 :=
  (Numeral.scan (Text.dropBlanks s.toList)).map (·.1.value)

end Binary64

end Spreadsheet
