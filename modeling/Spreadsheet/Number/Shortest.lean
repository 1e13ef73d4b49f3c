import Spreadsheet.Number.Numeral

namespace Spreadsheet

structure Decimal where
  digits : Nat
  exponent : Int
  deriving DecidableEq

namespace Decimal

/-- A count of units as a decimal, without rounding. In lowest terms the denominator is a power of
two, so the number has as many places as the exponent of that power. -/
def ofUnits (units : Nat) : Decimal :=
  let unit := Nat.gcd units Binary64.one
  let places := Nat.log2 (Binary64.one / unit)
  ⟨units / unit * Nat.pow 5 places, -places⟩

def neighbours (d : Decimal) (drop : Nat) : List Decimal :=
  let unit := Nat.pow 10 drop
  let lower := d.digits / unit
  let exponent := d.exponent + drop
  if 2 * (d.digits % unit) < unit then [⟨lower, exponent⟩, ⟨lower + 1, exponent⟩]
  else [⟨lower + 1, exponent⟩, ⟨lower, exponent⟩]

def trimFraction (ds : List Char) : List Char :=
  (ds.reverse.dropWhile (· == '0')).reverse

def render (d : Decimal) : List Char :=
  match d.exponent with
  | .ofNat e => Nat.toDigits 10 (d.digits * Nat.pow 10 e)
  | .negSucc e =>
    let places := e + 1
    let fraction := Nat.toDigits 10 (d.digits % Nat.pow 10 places)
    let fraction := trimFraction (List.replicate (places - fraction.length) '0' ++ fraction)
    let whole := Nat.toDigits 10 (d.digits / Nat.pow 10 places)
    if fraction = [] then whole else whole ++ '.' :: fraction

end Decimal

namespace Binary64

def readsBack (units : Nat) (d : Decimal) : Bool :=
  match ofDecimal false d.digits d.exponent with
  | .finite _ u _ => u == units
  | _ => false

/-- The shortest decimal that reads back; seventeen digits suffice for every number. -/
def shortest (units : Nat) : Decimal :=
  let exact := Decimal.ofUnits units
  let length := (Nat.toDigits 10 exact.digits).length
  ((List.range 17).findSome? fun n =>
    (exact.neighbours (length - (n + 1))).find? (readsBack units)).getD exact

def toText : Binary64 → String
  | .finite negative units _ =>
    let digits := if units = 0 then ['0'] else (shortest units).render
    String.ofList (if negative then '-' :: digits else digits)
  | .infinite negative => if negative then "-inf" else "inf"
  | .nan => "NaN"

end Binary64

end Spreadsheet
