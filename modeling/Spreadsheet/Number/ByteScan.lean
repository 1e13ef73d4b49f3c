import Spreadsheet.Number.Numeral

/-! The number that leads a text, found on the bytes of the text. Positions count bytes from the start of
the text. A slice that would begin or end beyond the text, or end within a character, gives nothing, and
then neither does what is read from it. -/

namespace Spreadsheet.ByteScan

def bytes (cs : List Char) : List UInt8 :=
  cs.flatMap String.utf8EncodeChar

def isOneOf (cs : List Char) (b : UInt8) : Bool :=
  cs.any fun c => c.toNat == b.toNat

def isDigit (b : UInt8) : Bool :=
  '0'.toNat ≤ b.toNat && b.toNat ≤ '9'.toNat

def holds (bs : List UInt8) (i : Nat) (p : UInt8 → Bool) : Bool :=
  bs[i]?.any p

def skipSign (bs : List UInt8) (i : Nat) : Nat :=
  if holds bs i (isOneOf ['+', '-']) then i + 1 else i

def mantissaEnd (bs : List UInt8) (i digits : Nat) (seenPoint : Bool) : Nat × Nat :=
  if h : i < bs.length then
    if isDigit bs[i] then mantissaEnd bs (i + 1) (digits + 1) seenPoint
    else if isOneOf ['.'] bs[i] && !seenPoint then mantissaEnd bs (i + 1) digits true
    else (i, digits)
  else (i, digits)
  termination_by bs.length - i

def slice? (bs : List UInt8) (i : Nat) : Option (List UInt8) :=
  if i ≤ bs.length then some (bs.drop i) else none

def exponentEnd? (bs : List UInt8) (i : Nat) : Option Nat :=
  if holds bs i (isOneOf ['e', 'E']) then
    let start := skipSign bs (i + 1)
    (slice? bs start).map fun rest =>
      let count := (rest.takeWhile isDigit).length
      if 0 < count then start + count else i
  else some i

def cut? : List Char → Nat → Option (List Char)
  | _, 0 => some []
  | [], _ + 1 => none
  | c :: cs, n + 1 =>
    if c.utf8Size ≤ n + 1 then (cut? cs (n + 1 - c.utf8Size)).map (c :: ·) else none

def leading? (s : String) : Option (Option Binary64) := do
  let text := Text.dropBlanks s.toList
  let bs := bytes text
  let (stop, digits) := mantissaEnd bs (skipSign bs 0) 0 false
  if digits = 0 then return none
  return Binary64.read? (← cut? text (← exponentEnd? bs stop))

end Spreadsheet.ByteScan
