import Spreadsheet.Text.Blank

namespace Spreadsheet

/-- A cell by its column and row, both counted from zero. -/
structure Address where
  col : Nat
  row : Nat
  deriving DecidableEq

namespace Address

/-- Columns and rows are numbered from 1 up to this number. -/
def limit : Nat := Nat.pow 2 64 - 1

def letter (digit : Nat) : Char :=
  Char.ofNat ('A'.toNat + digit)

/-- Digits of a base 26 without a zero: `Z` is followed by `AA`, and zero has no letters. -/
def letters : Nat → List Char
  | 0 => []
  | n + 1 => letters (n / 26) ++ [letter (n % 26)]
  termination_by n => n
  decreasing_by omega

def columnLetters (col : Nat) : String :=
  String.ofList (letters (col + 1))

def lettersValue (cs : List Char) : Nat :=
  cs.foldl (fun n c => 26 * n + (c.toNat - 'A'.toNat + 1)) 0

def isCapital (c : Char) : Bool :=
  'A' ≤ c && c ≤ 'Z'

def columnOfLetters? (cs : List Char) : Option Nat :=
  if cs ≠ [] ∧ cs.all isCapital ∧ lettersValue cs ≤ limit then some (lettersValue cs - 1) else none

def rowOfDigits? (ds : List Char) : Option Nat :=
  let n := Nat.ofDigitChars 10 ds 0
  if ds ≠ [] ∧ ds.all Char.isDigit ∧ 1 ≤ n ∧ n ≤ limit then some (n - 1) else none

def parseList? (cs : List Char) : Option Address := do
  let cs := cs.map Char.toUpper
  let col ← columnOfLetters? (cs.takeWhile isCapital)
  let row ← rowOfDigits? (cs.dropWhile isCapital)
  return ⟨col, row⟩

def parse? (s : String) : Option Address :=
  parseList? s.toList

def parseTrimmed? (s : String) : Option Address :=
  parseList? (Text.trimList s.toList)

def toText (a : Address) : String :=
  columnLetters a.col ++ Nat.repr (a.row + 1)

end Address

structure Range where
  start : Address
  stop : Address
  deriving DecidableEq

namespace Range

def single (a : Address) : Range := ⟨a, a⟩

def minCol (r : Range) : Nat := min r.start.col r.stop.col
def maxCol (r : Range) : Nat := max r.start.col r.stop.col
def minRow (r : Range) : Nat := min r.start.row r.stop.row
def maxRow (r : Range) : Nat := max r.start.row r.stop.row

def height (r : Range) : Nat := r.maxRow - r.minRow + 1
def width (r : Range) : Nat := r.maxCol - r.minCol + 1

def topLeft (r : Range) : Address := ⟨r.minCol, r.minRow⟩

def contains (r : Range) (a : Address) : Bool :=
  r.minRow ≤ a.row && a.row ≤ r.maxRow && r.minCol ≤ a.col && a.col ≤ r.maxCol

def product (rows cols : List Nat) : List Address :=
  rows.flatMap fun row => cols.map fun col => ⟨col, row⟩

def cells (r : Range) : List Address :=
  product (List.range' r.minRow r.height) (List.range' r.minCol r.width)

def parse? (s : String) : Option Range := do
  let cs := s.toList
  let start ← Address.parseList? (Text.trimList (cs.takeWhile (· != ':')))
  match cs.dropWhile (· != ':') with
  | [] => none
  | _ :: rest => return ⟨start, ← Address.parseList? (Text.trimList rest)⟩

def toText (r : Range) : String :=
  r.start.toText ++ ":" ++ r.stop.toText

end Range

end Spreadsheet
