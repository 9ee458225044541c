import SessionPlan.Decimal.Binary

/-! The decimal with the fewest digits that rounds to a given number, and of those the nearest.

A number owns the reals between the midpoints to its neighbours, the midpoints too when its
mantissa is even. For one digit, two digits and so on, the two points of that decimal grid around
the number are tried; the first grid with a point in the interval wins. -/
namespace SessionPlan.Decimal

/-- `coefficient · 10 ^ exponent`. -/
structure Digits where
  coefficient : Nat
  exponent : Int
  deriving DecidableEq, Repr

/-- The interval of `m · 2 ^ q` in quarters of `2 ^ q`: the lower half is narrower where the
mantissa is the least of its binade. -/
structure Interval where
  low : Nat
  middle : Nat
  high : Nat
  closed : Bool

def interval (m : Nat) (q : Int) : Interval :=
  let low := if m = Nat.pow 2 52 ∧ q > -1074 then 4 * m - 1 else 4 * m - 2
  ⟨low, 4 * m, 4 * m + 2, m % 2 == 0⟩

/-- Factors `a`, `b` such that `c · 10 ^ k` lies below `x · 2 ^ (q - 2)` iff `c * b < x * a`. -/
def factors (q k : Int) : Nat × Nat :=
  let two := q - 2
  (Nat.pow 2 two.toNat * Nat.pow 10 (-k).toNat, Nat.pow 2 (-two).toNat * Nat.pow 10 k.toNat)

def Interval.has (i : Interval) (a b c : Nat) : Bool :=
  if i.closed then i.low * a ≤ c * b && c * b ≤ i.high * a
  else i.low * a < c * b && c * b < i.high * a

/-- The better of the two grid points around the number, if one lies in the interval. -/
def gridPoint (i : Interval) (q k : Int) : Option Nat :=
  let (a, b) := factors q k
  let floor := i.middle * a / b
  let below := i.has a b floor && floor != 0
  let above := i.has a b (floor + 1)
  if below && above then
    let down := i.middle * a - floor * b
    let up := (floor + 1) * b - i.middle * a
    if down < up || (down == up && floor % 2 == 0) then some floor else some (floor + 1)
  else if below then some floor
  else if above then some (floor + 1)
  else none

/-- The least `e` with `m · 2 ^ q < 10 ^ e`, for a positive `m`. -/
def magnitude (m : Nat) (q : Int) : Int :=
  let (n, d) := scaled m 1 q
  if d ≤ n then (Nat.toDigits 10 (n / d)).length
  else 1 - (Nat.toDigits 10 ((d - 1) / n)).length

/-- The point found may be ten times a point of the grid above, past the number's own digits. -/
def search (i : Interval) (q : Int) (k : Int) : (grids : Nat) → Digits
  | 0 => ⟨0, 0⟩
  | grids + 1 =>
    match gridPoint i q k with
    | some c => if c % 10 = 0 then ⟨c / 10, k + 1⟩ else ⟨c, k⟩
    | none => search i q (k - 1) grids

/-- Seventeen digits tell all numbers apart, so no more grids are needed. -/
def shortest (m : Nat) (q : Int) : Digits :=
  if m = 0 then ⟨0, 0⟩ else search (interval m q) q (magnitude m q - 1) 17

example : shortest 1 (-1074) = ⟨5, -324⟩ := by decide +kernel
example : shortest (2 ^ 52) (-52) = ⟨1, 0⟩ := by decide +kernel

end SessionPlan.Decimal
