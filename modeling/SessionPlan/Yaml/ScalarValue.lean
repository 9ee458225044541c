import SessionPlan.Text.LowerCase
import SessionPlan.Yaml.PlainTag

/-! Values out of the text of YAML scalars. -/
namespace SessionPlan.Yaml
open SessionPlan.Text

def fault (f : Fault) : Except Error α := .error (.fault f)

def withoutBars (s : String) : List Char := s.toList.filter (· != '_')

/-- Splits a sign off. There must be a character to look at. -/
def signed (s : List Char) : Except Error (Bool × List Char) :=
  match s with
  | [] => fault .indexMissing
  | '-' :: rest => .ok (true, rest)
  | '+' :: rest => .ok (false, rest)
  | rest => .ok (false, rest)

/-- An integer in a base other than ten; its digits may have a sign and the mark of the base. -/
def baseInteger (base : Nat) (mark : Char) (s : List Char) : Except Error Int :=
  let (negative, digits) := match withoutMargins s with
    | '-' :: rest => (true, rest)
    | '+' :: rest => (false, rest)
    | rest => (false, rest)
  let digits := match digits with
    | '0' :: m :: rest => if m.toLower = mark then rest else digits
    | _ => digits
  match baseDigitsValue? base 0 false digits with
  | some n => .ok (if negative then -(n : Int) else n)
  | none => fault (.notInteger (String.ofList s) base)

def decimalInteger (s : List Char) : Except Error Int :=
  (integer (String.ofList s)).mapError fun flaw => .fault (.ofNumeral (String.ofList s) flaw)

def unsignedInteger (s : List Char) : Except Error Int :=
  match s with
  | ['0'] => .ok 0
  | '0' :: 'b' :: digits => baseInteger 2 'b' digits
  | '0' :: 'x' :: digits => baseInteger 16 'x' digits
  | '0' :: _ => baseInteger 8 'o' s
  | [] => fault .indexMissing
  | _ =>
    if s.contains ':' then do
      let digits ← (splitList ':' s).mapM decimalInteger
      return digits.foldl (fun n d => 60 * n + d) 0
    else decimalInteger s

/-- Bars are only for the eye; a colon separates digits of base sixty. -/
def integerValue (text : String) : Except Error Int := do
  let (negative, digits) ← signed (withoutBars text)
  let n ← unsignedInteger digits
  return if negative then -n else n

def floatOf (s : List Char) : Except Error Float :=
  match Decimal.float? (String.ofList s) with
  | some x => .ok x
  | none => fault (.notNumber (String.ofList s))

/-- Digits of base sixty, the last first; `scale` is what the next digit counts. -/
def sexagesimalSum (sum : Float) (scale : Nat) : List Float → Except Error Float
  | [] => .ok sum
  | d :: rest =>
    match Decimal.kind (Decimal.ofQuotient false scale 1) with
    | .finite _ => sexagesimalSum (sum + d * Decimal.ofQuotient false scale 1) (60 * scale) rest
    | _ => fault .tooLarge

def negate (negative : Bool) (x : Float) : Float := if negative then -1.0 * x else x

/-- The number of a text in lower case, less its sign. -/
def unsignedFloat (s : List Char) : Except Error Float :=
  if s == ".inf".toList then .ok (Decimal.infinity false)
  else if s.contains ':' then do
    let digits ← (splitList ':' s).mapM floatOf
    sexagesimalSum (Decimal.ofQuotient false 0 1) 1 digits.reverse
  else floatOf s

/-- A number, in any case. The word for a NaN is the same NaN wherever it stands; every other NaN
is of the given source. -/
def floatValue (source : Nat) (text : String) : Except Error Tree := do
  let (negative, body) ← signed (lower (withoutBars text))
  if body == ".nan".toList then return .nan 0
  return .ofFloat source (negate negative (← unsignedFloat body))

def boolValue (text : String) : Except Error Bool :=
  match [("yes", true), ("no", false), ("true", true), ("false", false), ("on", true),
      ("off", false)].lookup (lowerAscii text) with
  | some b => .ok b
  | none => fault .keyMissing

def natOf (digits : List Char) : Nat := digits.foldl (fun n c => 10 * n + (c.toNat - 48)) 0

/-- A fraction of a second in microseconds; further digits are cut off. -/
def microseconds (fraction : List Char) : Nat :=
  let digits := fraction.take 6
  natOf (digits ++ List.replicate (6 - digits.length) '0')

def checked (flaw : Option String) : Except Error Unit :=
  match flaw with
  | some words => fault (.outOfRange words)
  | none => .ok ()

/-- An offset must be shorter than a day. -/
def offsetOf (sign : Char) (hours minutes : List Char) : Except Error Int :=
  let seconds : Int := natOf hours * 3600 + natOf minutes * 60
  let offset := if sign = '-' then -seconds else seconds
  if seconds < 86400 then .ok offset
  else fault (.outOfRange
    ("offset must be a timedelta strictly between -timedelta(hours=24) and " ++
      "timedelta(hours=24), not " ++ Calendar.spanText offset ++ "."))

def timestampValue (text : String) : Except Error Tree := do
  let some t := timestamp? (withoutLastBreak text.toList) | fault .partMissing
  let date : Calendar.Date := ⟨natOf t.year, natOf t.month, natOf t.day⟩
  match t.time with
  | none =>
    checked date.flaw?
    return .date date
  | some (hour, minute, second) =>
    let offset ← match t.zone with
      | none => pure none
      | some none => pure (some 0)
      | some (some (sign, hours, minutes)) => some <$> offsetOf sign hours minutes
    let clock : Calendar.Clock :=
      ⟨natOf hour, natOf minute, natOf second, microseconds t.fraction⟩
    checked date.flaw?
    checked clock.flaw?
    return .moment ⟨date, clock, offset⟩

end SessionPlan.Yaml
