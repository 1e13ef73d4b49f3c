import Spreadsheet.Document
import Spreadsheet.Number.Numeral
import Spreadsheet.Toml.Text

namespace Spreadsheet.Toml

open Reader

def moreDigits (p : Char → Bool) : List Char → List Char × List Char
  | '_' :: c :: cs =>
    if p c then let (ds, rest) := moreDigits p cs; (c :: ds, rest) else ([], '_' :: c :: cs)
  | c :: cs => if p c then let (ds, rest) := moreDigits p cs; (c :: ds, rest) else ([], c :: cs)
  | [] => ([], [])

def digits (p : Char → Bool) : Reader (List Char) := do
  let first ← satisfy p
  let others ← fun cs => some (moreDigits p cs)
  return first :: others

def wholeDigits : Reader (List Char)
  | '0' :: cs => some (['0'], cs)
  | cs => digits Char.isDigit cs

def sign : Reader Bool :=
  fun cs => some (Numeral.splitSign cs)

def fraction : Reader (List Char) := do
  expect ['.']
  digits Char.isDigit

def exponent : Reader Int := do
  let _ ← satisfy fun c => c == 'e' || c == 'E'
  let negative ← sign
  let n := Numeral.digitsValue (← digits Char.isDigit)
  return if negative then -(n : Int) else n

def decimal : Reader Document := do
  let negative ← sign
  let whole ← wholeDigits
  let fraction ← some <$> fraction <|> pure none
  let exponent ← some <$> exponent <|> pure none
  if fraction.isNone && exponent.isNone then failure
  else
    let x := (Numeral.mk negative whole (fraction.getD []) (exponent.getD 0)).value
    if x = .infinite false then failure else return .number x

def specialNumber : Reader Document := do
  let negative ← sign
  (do expect ['i', 'n', 'f']; return .number (.infinite negative))
    <|> (do expect ['n', 'a', 'n']; return .number .nan)

def integer (n : Int) : Reader Document :=
  if -(Nat.pow 2 63 : Nat) ≤ n ∧ n < (Nat.pow 2 63 : Nat) then return .integer n else failure

def radixInteger (mark : Char) (radix : Nat) : Reader Document := do
  expect ['0', mark]
  let ds ← digits fun c => ((hexValue [c]).map (decide <| · < radix)).getD false
  integer (ds.foldl (fun n c => radix * n + ((hexValue [c]).getD 0)) 0)

def decimalInteger : Reader Document := do
  let negative ← sign
  let n := Numeral.digitsValue (← wholeDigits)
  integer (if negative then -(n : Int) else n)

def fixedDigits (count lo hi : Nat) : Reader Nat := fun cs =>
  let ds := cs.take count
  let n := Numeral.digitsValue ds
  if ds.length = count ∧ ds.all Char.isDigit ∧ lo ≤ n ∧ n ≤ hi then some (n, cs.drop count)
  else none

def daysInMonth (year month : Nat) : Nat :=
  if month = 2 then
    if year % 4 = 0 ∧ (year % 100 ≠ 0 ∨ year % 400 = 0) then 29 else 28
  else if month = 4 ∨ month = 6 ∨ month = 9 ∨ month = 11 then 30
  else 31

def date : Reader Unit := do
  let year ← fixedDigits 4 0 9999
  expect ['-']
  let month ← fixedDigits 2 1 12
  expect ['-']
  let _ ← fixedDigits 2 1 (daysInMonth year month)

def hourMinute : Reader Unit := do
  let _ ← fixedDigits 2 0 23
  expect [':']
  let _ ← fixedDigits 2 0 59

def clock : Reader Unit := do
  hourMinute
  expect [':']
  let _ ← fixedDigits 2 0 60
  (do
    expect ['.']
    let _ ← satisfy Char.isDigit
    let _ ← takeWhile Char.isDigit) <|> pure ()

def offset : Reader Unit :=
  (do let _ ← satisfy fun c => c == 'Z' || c == 'z')
    <|> (do
      let _ ← satisfy fun c => c == '+' || c == '-'
      hourMinute)

def moment : Reader Unit :=
  (do
    date
    (do
      let _ ← satisfy fun c => c == 'T' || c == 't' || c == ' '
      clock
      offset <|> pure ()) <|> pure ())
    <|> clock

def time : Reader Document := fun cs => do
  let ((), rest) ← moment cs
  return (.time (String.ofList (cs.take (cs.length - rest.length))), rest)

def bool : Reader Document :=
  (do expect "true".toList; return .bool true) <|> (do expect "false".toList; return .bool false)

def scalar : Reader Document :=
  bool <|> time <|> decimal <|> specialNumber
    <|> radixInteger 'x' 16 <|> radixInteger 'o' 8 <|> radixInteger 'b' 2 <|> decimalInteger

end Spreadsheet.Toml
