import Spreadsheet.Number.Binary64

namespace Spreadsheet.Binary64

/-- Rounds to a multiple of `1 / scale`, halves towards positive infinity, in double precision throughout. -/
def roundScaled (scale n : Binary64) : Binary64 :=
  floor (n * scale + 0.5) / scale

def round4 (n : Binary64) : Binary64 :=
  roundScaled 10000 n

def round2 (n : Binary64) : Binary64 :=
  roundScaled 100 n

end Spreadsheet.Binary64
