import SessionPlan.Decimal.Shortest

/-! Decimal text of a number: the shortest digits, laid out with a point or with an exponent. -/
namespace SessionPlan.Decimal

/-- Choices of a format. A number `0.d₁d₂… · 10 ^ point` is positional while `point` lies above
`least` and is at most `greatest`. -/
structure Layout where
  least : Int
  greatest : Int
  exponentWidth : Nat
  infinityText : String
  nanText : String

def padded (width : Nat) (digits : List Char) : List Char :=
  List.replicate (width - digits.length) '0' ++ digits

def Layout.exponent (l : Layout) (e : Int) : List Char :=
  'e' :: (if e < 0 then '-' else '+') :: padded l.exponentWidth (Nat.toDigits 10 e.natAbs)

/-- Positional text has a digit on both sides of the point. -/
def positional (digits : List Char) (point : Int) : List Char :=
  let count := digits.length
  if point ≤ 0 then '0' :: '.' :: List.replicate (-point).toNat '0' ++ digits
  else if (count : Int) ≤ point then
    digits ++ List.replicate (point.toNat - count) '0' ++ ['.', '0']
  else digits.take point.toNat ++ '.' :: digits.drop point.toNat

def Layout.magnitude (l : Layout) (d : Digits) : List Char :=
  if d.coefficient = 0 then ['0', '.', '0']
  else
    let digits := Nat.toDigits 10 d.coefficient
    let point := d.exponent + digits.length
    if l.least < point && point ≤ l.greatest then positional digits point
    else
      let fraction := match digits.drop 1 with
        | [] => []
        | rest => '.' :: rest
      digits.take 1 ++ fraction ++ l.exponent (point - 1)

def Layout.text (l : Layout) (x : Float) : String :=
  match kind x with
  | .notANumber => l.nanText
  | .infinite negative => if negative then "-" ++ l.infinityText else l.infinityText
  | .finite ⟨negative, m, q⟩ =>
    let body := l.magnitude (shortest m q)
    String.ofList (if negative then '-' :: body else body)

end SessionPlan.Decimal
