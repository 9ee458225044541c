import SessionPlan.Decimal.Binary
import SessionPlan.Text.Blank
import SessionPlan.Text.Digit
import SessionPlan.Text.Search

/-! Numbers in decimal text: digits with an optional point and exponent, single underscores
between digits, and the words for infinity and NaN. -/
namespace SessionPlan.Decimal
open SessionPlan.Text

/-- Value and count of the digits at the start of `s`, and what follows them. An underscore is
skipped where digits stand on both sides of it. -/
def digitsFrom (value count : Nat) : List Char → Nat × Nat × List Char
  | [] => (value, count, [])
  | '_' :: c :: rest =>
    match decimalValue? c with
    | some d =>
      if count = 0 then (value, count, '_' :: c :: rest)
      else digitsFrom (10 * value + d) (count + 1) rest
    | none => (value, count, '_' :: c :: rest)
  | c :: rest =>
    match decimalValue? c with
    | some d => digitsFrom (10 * value + d) (count + 1) rest
    | none => (value, count, c :: rest)

/-- An exponent that must fill the rest of the text; no text is the exponent zero. -/
def exponentOf? : List Char → Option Int
  | [] => some 0
  | e :: rest =>
    if e = 'e' ∨ e = 'E' then
      let (negative, digits) := match rest with
        | '-' :: digits => (true, digits)
        | '+' :: digits => (false, digits)
        | digits => (false, digits)
      match digitsFrom 0 0 digits with
      | (value, _ + 1, []) => some (if negative then -(value : Int) else value)
      | _ => none
    else none

def unsigned? (negative : Bool) (s : List Char) : Option Float :=
  let word := (String.ofList s).toList.map Char.toLower
  if word = "inf".toList ∨ word = "infinity".toList then some (infinity negative)
  else if word = "nan".toList then some nan
  else
    let (whole, wholeCount, rest) := digitsFrom 0 0 s
    let (value, count, fractionCount, rest) := match rest with
      | '.' :: rest =>
        let (fraction, n, rest') := digitsFrom 0 0 rest
        (whole * Nat.pow 10 n + fraction, wholeCount + n, n, rest')
      | rest => (whole, wholeCount, 0, rest)
    if count = 0 then none
    else (exponentOf? rest).map fun e => ofScaled negative value (e - fractionCount)

/-- The number that a whole text writes, margins around it aside. -/
def float? (s : String) : Option Float :=
  match withoutMargins s.toList with
  | '-' :: rest => unsigned? true rest
  | '+' :: rest => unsigned? false rest
  | rest => unsigned? false rest

end SessionPlan.Decimal
