/-! Double precision numbers, the numbers of a sheet. A finite number is a sign and a count of units,
a unit being the least positive number, `2 ^ -1074`. Every operation computes its exact result as a
quotient of naturals and rounds it once with `ofQuotient`. -/

namespace Spreadsheet

namespace Binary64

def oneExponent : Nat := 1074

def one : Nat := Nat.pow 2 oneExponent

def overflowExponent : Nat := 2098

def overflow : Nat := Nat.pow 2 overflowExponent

/-- A count of at most 53 significant bits, below `overflow`. -/
def Representable (units : Nat) : Prop :=
  Nat.pow 2 (units.log2 - 52) ∣ units ∧ units < overflow

instance (units : Nat) : Decidable (Representable units) :=
  inferInstanceAs (Decidable (_ ∧ _))

end Binary64

inductive Binary64
  | finite (negative : Bool) (units : Nat) (representable : Binary64.Representable units)
  | infinite (negative : Bool)
  | nan
  deriving DecidableEq

namespace Binary64

theorem one_pos : 0 < one := by
  unfold one
  generalize oneExponent = n
  exact Nat.two_pow_pos n

theorem overflow_pos : 0 < overflow := by
  unfold overflow
  generalize overflowExponent = n
  exact Nat.two_pow_pos n

theorem representable_zero : Representable 0 :=
  ⟨Nat.dvd_zero _, overflow_pos⟩

theorem representable_mul_pow {m s : Nat} (hm : m ≤ Nat.pow 2 53)
    (h : m * Nat.pow 2 s < overflow) : Representable (m * Nat.pow 2 s) := by
  refine ⟨?_, h⟩
  simp only [Nat.pow_eq] at *
  by_cases h0 : m = 0
  · subst h0; simp
  by_cases hlt : m < 2 ^ 53
  · have hlog : (m * 2 ^ s).log2 < 53 + s := by
      rw [Nat.log2_lt (Nat.mul_ne_zero h0 (Nat.ne_of_gt (Nat.two_pow_pos s)))]
      calc m * 2 ^ s < 2 ^ 53 * 2 ^ s := (Nat.mul_lt_mul_right (Nat.pow_pos (by decide))).2 hlt
        _ = 2 ^ (53 + s) := (Nat.pow_add 2 53 s).symm
    exact Nat.dvd_trans (Nat.pow_dvd_pow 2 (by omega)) (Nat.dvd_mul_left _ _)
  · have he : m * 2 ^ s = 2 ^ (53 + s) := by
      rw [show m = 2 ^ 53 by omega, Nat.pow_add]
    rw [he, Nat.log2_two_pow]
    exact Nat.pow_dvd_pow 2 (by omega)

def nearest (n d : Nat) : Nat :=
  if 2 * (n % d) < d ∨ (2 * (n % d) = d ∧ n / d % 2 = 0) then n / d else n / d + 1

theorem nearest_le (n d : Nat) : nearest n d ≤ n / d + 1 := by
  unfold nearest
  split <;> omega

def gridExponent (n d : Nat) : Nat :=
  (n / d).log2 - 52

def roundUnits (n d : Nat) : Nat :=
  nearest n (d * Nat.pow 2 (gridExponent n d)) * Nat.pow 2 (gridExponent n d)

theorem nearest_grid_le (n d : Nat) :
    nearest n (d * Nat.pow 2 (gridExponent n d)) ≤ Nat.pow 2 53 := by
  simp only [Nat.pow_eq]
  have hq : n / d < 2 ^ (53 + gridExponent n d) := by
    by_cases h0 : n / d = 0
    · rw [h0]; exact Nat.pow_pos (by decide)
    · rw [← Nat.log2_lt h0]; unfold gridExponent; omega
  have hdiv : n / (d * 2 ^ gridExponent n d) < 2 ^ 53 := by
    rw [← Nat.div_div_eq_div_mul, Nat.div_lt_iff_lt_mul (Nat.pow_pos (by decide)), ← Nat.pow_add]
    exact hq
  have := nearest_le n (d * 2 ^ gridExponent n d)
  omega

/-- The number nearest to `n / d` units, an even count of two equally near, infinite on overflow. -/
def ofQuotient (negative : Bool) (n d : Nat) : Binary64 :=
  if h : roundUnits n d < overflow then
    .finite negative (roundUnits n d) (representable_mul_pow (nearest_grid_le n d) h)
  else .infinite negative

def zero (negative : Bool) : Binary64 :=
  .finite negative 0 representable_zero

def ofNat (n : Nat) : Binary64 :=
  ofQuotient false (n * one) 1

instance (n : Nat) : OfNat Binary64 n := ⟨ofNat n⟩

/-- The number nearest to `digits * 10 ^ exponent`. Exponents so large or so small that the result is
plainly infinite or zero are told by the length of the digits. -/
def ofDecimal (negative : Bool) (digits : Nat) (exponent : Int) : Binary64 :=
  let size : Int := (digits.log2 : Int) / 3
  if digits = 0 then zero negative
  else if exponent > 400 then .infinite negative
  else if exponent + size < -400 then zero negative
  else if 0 ≤ exponent then ofQuotient negative (digits * Nat.pow 10 exponent.toNat * one) 1
  else ofQuotient negative (digits * one) (Nat.pow 10 (-exponent).toNat)

instance : OfScientific Binary64 where
  ofScientific m s e := ofDecimal false m (if s then -e else e)

def isFinite : Binary64 → Bool
  | .finite .. => true
  | _ => false

def isNaN : Binary64 → Bool
  | .nan => true
  | _ => false

def isZero : Binary64 → Bool
  | .finite _ u _ => u == 0
  | _ => false

def neg : Binary64 → Binary64
  | .finite s u h => .finite (!s) u h
  | .infinite s => .infinite (!s)
  | .nan => .nan

def abs : Binary64 → Binary64
  | .finite _ u h => .finite false u h
  | .infinite _ => .infinite false
  | .nan => .nan

def signed (negative : Bool) (units : Nat) : Int :=
  if negative then -units else units

def add : Binary64 → Binary64 → Binary64
  | .finite s u _, .finite t v _ =>
    let sum := signed s u + signed t v
    if sum = 0 then zero (s && t) else ofQuotient (sum < 0) sum.natAbs 1
  | .infinite s, .infinite t => if s = t then .infinite s else .nan
  | .infinite s, .finite .. => .infinite s
  | .finite .., .infinite t => .infinite t
  | .nan, _ => .nan
  | _, .nan => .nan

def sub (x y : Binary64) : Binary64 :=
  add x (neg y)

def mul : Binary64 → Binary64 → Binary64
  | .finite s u _, .finite t v _ => ofQuotient (s != t) (u * v) one
  | .infinite s, .infinite t => .infinite (s != t)
  | .infinite s, .finite t v _ => if v = 0 then .nan else .infinite (s != t)
  | .finite s u _, .infinite t => if u = 0 then .nan else .infinite (s != t)
  | .nan, _ => .nan
  | _, .nan => .nan

def div : Binary64 → Binary64 → Binary64
  | .finite s u _, .finite t v _ =>
    if v ≠ 0 then ofQuotient (s != t) (u * one) v
    else if u = 0 then .nan
    else .infinite (s != t)
  | .infinite _, .infinite _ => .nan
  | .infinite s, .finite t .. => .infinite (s != t)
  | .finite s .., .infinite t => zero (s != t)
  | .nan, _ => .nan
  | _, .nan => .nan

instance : Neg Binary64 := ⟨neg⟩
instance : Add Binary64 := ⟨add⟩
instance : Sub Binary64 := ⟨sub⟩
instance : Mul Binary64 := ⟨mul⟩
instance : Div Binary64 := ⟨div⟩

def position : Binary64 → Option Int
  | .finite s u _ => some (signed s u)
  | .infinite s => some (signed s overflow)
  | .nan => none

def lt (x y : Binary64) : Bool :=
  match x.position, y.position with
  | some a, some b => a < b
  | _, _ => false

def le (x y : Binary64) : Bool :=
  match x.position, y.position with
  | some a, some b => a ≤ b
  | _, _ => false

def same (x y : Binary64) : Bool :=
  match x.position, y.position with
  | some a, some b => a = b
  | _, _ => false

instance : LT Binary64 := ⟨fun x y => lt x y⟩
instance : LE Binary64 := ⟨fun x y => le x y⟩
instance (x y : Binary64) : Decidable (x < y) := inferInstanceAs (Decidable (lt x y = true))
instance (x y : Binary64) : Decidable (x ≤ y) := inferInstanceAs (Decidable (le x y = true))

/-- The lesser of two numbers, the first of two equal ones; `nan` gives way to any number. -/
def least (x y : Binary64) : Binary64 :=
  if x.isNaN || lt y x then y else x

def greatest (x y : Binary64) : Binary64 :=
  if x.isNaN || lt x y then y else x

def floor : Binary64 → Binary64
  | .finite false u _ => ofQuotient false (u / one * one) 1
  | .finite true u _ => ofQuotient true ((u + (one - 1)) / one * one) 1
  | .infinite s => .infinite s
  | .nan => .nan

def toIndex : Binary64 → Nat
  | .finite _ u _ => min (u / one) (Nat.pow 2 64 - 1)
  | .infinite _ => Nat.pow 2 64 - 1
  | .nan => 0

/-- The sum from the left; an empty sum is negative zero, which changes no number added to it. -/
def sum (xs : List Binary64) : Binary64 :=
  xs.foldl (· + ·) (zero true)

end Binary64

end Spreadsheet
