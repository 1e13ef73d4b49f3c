import Spreadsheet.Number.Binary64

namespace Spreadsheet

structure Settings where
  maxIterations : Nat := 100
  epsilon : Binary64 := 0.001
  minSlope : Binary64 := 1e-9
  deriving DecidableEq

namespace Secant

variable (settings : Settings) (f : Binary64 → Binary64)

structure State where
  previous : Binary64
  previousValue : Binary64
  current : Binary64
  currentValue : Binary64

def isZero (y : Binary64) : Bool :=
  y.abs < settings.epsilon

def start (seed : Binary64) : State :=
  let step := if seed.abs < 0.1 then 0.1 else seed * 0.01
  ⟨seed, f seed, seed + step, f (seed + step)⟩

/-- The next point is where the line through the two points meets zero; on flat ground it lies one
further on and the older point stays. -/
def next (s : State) : State :=
  let slope := s.currentValue - s.previousValue
  if slope.abs < settings.minSlope then
    { s with current := s.current + 1, currentValue := f (s.current + 1) }
  else
    let x := s.current - s.currentValue * (s.current - s.previous) / slope
    ⟨s.current, s.currentValue, x, f x⟩

def search : Nat → State → Except Binary64 Binary64
  | 0, s => .error s.current
  | n + 1, s => if isZero settings s.currentValue then .ok s.current else search n (next settings f s)

def solve (seed : Binary64) : Except Binary64 Binary64 :=
  if isZero settings (f seed) then .ok seed
  else search settings f settings.maxIterations (start f seed)

end Secant

end Spreadsheet
