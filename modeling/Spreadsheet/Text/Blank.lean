namespace Spreadsheet.Text

/-- The code points with the Unicode property White_Space, in closed ranges that ascend and stand apart. -/
def blankRanges : List (Nat × Nat) :=
  [(0x09, 0x0D), (0x20, 0x20), (0x85, 0x85), (0xA0, 0xA0), (0x1680, 0x1680), (0x2000, 0x200A),
   (0x2028, 0x2029), (0x202F, 0x202F), (0x205F, 0x205F), (0x3000, 0x3000)]

def isBlank (c : Char) : Bool :=
  blankRanges.any fun r => r.1 ≤ c.toNat && c.toNat ≤ r.2

def dropBlanks (s : List Char) : List Char :=
  s.dropWhile isBlank

def dropBlanksEnd (s : List Char) : List Char :=
  (s.reverse.dropWhile isBlank).reverse

def trimList (s : List Char) : List Char :=
  dropBlanksEnd (dropBlanks s)

def trim (s : String) : String :=
  String.ofList (trimList s.toList)

end Spreadsheet.Text
