/-! Floating-point numbers as exact values. A finite number is `m · 2 ^ q` with a sign; a quotient
of naturals is rounded to the nearest number, ties to the even mantissa. -/
namespace SessionPlan.Decimal

/-- Sign, mantissa and exponent of a finite number. The mantissa is below `2 ^ 53`. -/
structure Parts where
  negative : Bool
  m : Nat
  q : Int
  deriving DecidableEq, Repr

inductive Kind where
  | finite (parts : Parts) | infinite (negative : Bool) | notANumber
  deriving DecidableEq, Repr

/-- The kind that 64 bits stand for: sign, eleven bits of exponent, 52 of fraction. -/
def Kind.ofBits (bits : Nat) : Kind :=
  let negative := bits / Nat.pow 2 63 % 2 == 1
  let exponent : Nat := bits / Nat.pow 2 52 % Nat.pow 2 11
  let fraction : Nat := bits % Nat.pow 2 52
  if exponent = 2047 then if fraction = 0 then .infinite negative else .notANumber
  else if exponent = 0 then .finite ⟨negative, fraction, -1074⟩
  else .finite ⟨negative, fraction + Nat.pow 2 52, (exponent : Int) - 1075⟩

def kind (x : Float) : Kind := Kind.ofBits x.toBits.toNat

/-- `n · 2 ^ e / d` as a quotient of naturals. -/
def scaled (n d : Nat) (e : Int) : Nat × Nat :=
  if e < 0 then (n, d * Nat.pow 2 e.natAbs) else (n * Nat.pow 2 e.toNat, d)

/-- The natural nearest to `n / d`, of two the even one. -/
def nearest (n d : Nat) : Nat :=
  let floor := n / d
  let twice := 2 * (n % d)
  if twice < d then floor
  else if d < twice then floor + 1
  else floor + floor % 2

/-- The bits of the number nearest to `n / d`, without sign. The exponent is the least that
leaves a mantissa of 53 bits, but never below that of the smallest numbers; rounding up into the
next binade carries into the exponent field. -/
def roundedBits (n d : Nat) : Nat :=
  if n = 0 then 0
  else
    let estimate := (n.log2 : Int) - d.log2 - 53
    let low := max estimate (-1074)
    let (a, b) := scaled n d (-low)
    let q := if a / b < Nat.pow 2 53 then low else low + 1
    let (a, b) := scaled n d (-q)
    let m := nearest a b
    min ((q + 1074).toNat * Nat.pow 2 52 + m) (2047 * Nat.pow 2 52)

def ofQuotient (negative : Bool) (n d : Nat) : Float :=
  Float.ofBits (UInt64.ofNat (roundedBits n d + if negative then Nat.pow 2 63 else 0))

def infinity (negative : Bool) : Float := ofQuotient negative (Nat.pow 2 1024) 1

def nan : Float := Float.ofBits 0x7ff8000000000000

/-- `coefficient · 10 ^ exponent`, rounded. Sizes beyond every number are settled by the count of
digits, so that no huge power is formed. -/
def ofScaled (negative : Bool) (coefficient : Nat) (exponent : Int) : Float :=
  let magnitude := ((Nat.toDigits 10 coefficient).length : Int) + exponent
  if coefficient = 0 || magnitude < -330 then ofQuotient negative 0 1
  else if magnitude > 310 then infinity negative
  else if exponent < 0 then ofQuotient negative coefficient (Nat.pow 10 exponent.natAbs)
  else ofQuotient negative (coefficient * Nat.pow 10 exponent.toNat) 1

/-- Whether `m · 2 ^ q` is the natural `n`. -/
def isNatural (m : Nat) (q : Int) (n : Nat) : Bool :=
  if q < 0 then m == n * Nat.pow 2 q.natAbs else m * Nat.pow 2 q.toNat == n

/-- Whether a number and an integer are the same quantity. -/
def equalsInt (x : Float) (n : Int) : Bool :=
  match kind x with
  | .finite ⟨negative, m, q⟩ =>
    isNatural m q n.natAbs && (n == 0 || negative == decide (n < 0))
  | _ => false

/-- Whether two numbers are the same quantity: the zeros are, a NaN is none. -/
def equals (x y : Float) : Bool :=
  match kind x, kind y with
  | .finite a, .finite b => a == b || (a.m == 0 && b.m == 0)
  | .infinite a, .infinite b => a == b
  | _, _ => false

end SessionPlan.Decimal
