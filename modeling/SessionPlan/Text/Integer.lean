import SessionPlan.Text.Blank
import SessionPlan.Text.Digit

/-! Integers in text: an optional sign and decimal digits of any script, single underscores
between digits, margins around the whole. Between a text and its integer there is a limit of digits,
in both directions; bases that are powers of two have none. -/
namespace SessionPlan.Text

/-- The most digits of an integer that is read from a decimal numeral or written as one. -/
def digitLimit : Nat := 4300

/-- Whether a numeral of that many digits is allowed. Where there is no limit, all are. -/
def allowsDigits (limit : Option Nat) (digits : Nat) : Bool := limit.all (digits ≤ ·)

/-- Whether an integer has few enough digits to be written. -/
def isWritable (n : Int) : Bool := allowsDigits (some digitLimit) (Nat.toDigits 10 n.natAbs).length

/-- What is said where the limit of digits is passed, with a count where there is one. -/
def limitWords (counted : String) : String :=
  "Exceeds the limit (" ++ String.ofList (Nat.toDigits 10 digitLimit) ++
    " digits) for integer string conversion" ++ counted ++
    "; use sys.set_int_max_str_digits() to increase the limit"

/-- A numeral of that many digits has too many to be read. -/
def overlongWords (digits : Nat) : String :=
  limitWords (": value has " ++ String.ofList (Nat.toDigits 10 digits) ++ " digits")

/-- The value that `digits` adds to `value`; `afterDigit` tells whether an underscore may follow. -/
def digitsValue? (value : Nat) (afterDigit : Bool) : List Char → Option Nat
  | [] => if afterDigit then some value else none
  | c :: rest =>
    if c = '_' then if afterDigit then digitsValue? value false rest else none
    else match decimalValue? c with
      | some d => digitsValue? (10 * value + d) true rest
      | none => none

def integerOfChars? : List Char → Option Int
  | '-' :: digits => (digitsValue? 0 false digits).map fun (n : Nat) => -(n : Int)
  | '+' :: digits => (digitsValue? 0 false digits).map Int.ofNat
  | digits => (digitsValue? 0 false digits).map Int.ofNat

def withoutSign : List Char → List Char
  | '-' :: digits => digits
  | '+' :: digits => digits
  | digits => digits

/-- How many digits begin a numeral, up to what does not belong in one. There is no count where
there is no digit or where an underscore is out of place: such a text is no numeral for sure. -/
def digitCount? (count : Nat) (afterDigit : Bool) : List Char → Option Nat
  | [] => if afterDigit then some count else none
  | c :: rest =>
    if c = '_' then if afterDigit then digitCount? count false rest else none
    else if isDecimal c then digitCount? (count + 1) true rest
    else if afterDigit then some count else none

/-- Why a text is read as no integer. -/
inductive NumeralFlaw where
  | malformed
  | overlong (digits : Nat)
  deriving DecidableEq, Repr

/-- The integer that a text writes. Digits are counted before anything is converted, and the zeros
in front of a numeral count as well. -/
def integer (s : String) : Except NumeralFlaw Int :=
  let numeral := withoutMargins s.toList
  let count := (digitCount? 0 false (withoutSign numeral)).getD 0
  if digitLimit < count then .error (.overlong count)
  else match integerOfChars? numeral with
    | some n => .ok n
    | none => .error .malformed

def integer? (s : String) : Option Int := (integer s).toOption

def ofNat (n : Nat) : String := String.ofList (Nat.toDigits 10 n)

/-- The numeral of an integer, however long. Whether it can be written is asked of `isWritable`. -/
def ofInt : Int → String
  | .ofNat n => ofNat n
  | .negSucc n => String.ofList ('-' :: Nat.toDigits 10 (n + 1))

example : integerOfChars? "-1_000".toList = some (-1000) := by decide
example : integerOfChars? "1__0".toList = none ∧ integerOfChars? "".toList = none := by decide

/-- The value of digits in a base up to sixteen, underscores allowed between them as in
decimals. -/
def baseDigitsValue? (base : Nat) (value : Nat) (afterDigit : Bool) : List Char → Option Nat
  | [] => if afterDigit then some value else none
  | c :: rest =>
    if c = '_' then if afterDigit then baseDigitsValue? base value false rest else none
    else
      let digit := (decimalValue? c).or
        (if 'a' ≤ c && c ≤ 'z' then some (c.toNat - 87)
         else if 'A' ≤ c && c ≤ 'Z' then some (c.toNat - 55) else none)
      match digit with
      | some d => if d < base then baseDigitsValue? base (base * value + d) true rest else none
      | none => none

end SessionPlan.Text
