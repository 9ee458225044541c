import SessionPlan.Decimal.Reading
import SessionPlan.Yaml.Scalar

/-! The tag of a plain scalar that names none: it follows from the looks of its text. -/
namespace SessionPlan.Yaml

/-- A tag of the standard types. -/
def standard (name : String) : String := "tag:yaml.org,2002:" ++ name

/-- The words for true and false: in lower case, capitalised, or in capitals. -/
def boolWords : List String :=
  ["yes", "no", "true", "false", "on", "off"].flatMap fun word =>
    [word, String.ofList ((word.toList.take 1).map Char.toUpper ++ word.toList.drop 1),
     String.ofList (word.toList.map Char.toUpper)]

def nullWords : List String := ["~", "null", "Null", "NULL", ""]

def isDigitOrBar (c : Char) : Bool := isDigitChar c || c == '_'

/-- Drops an optional sign. -/
def unsigned (s : List Char) : List Char :=
  match s with
  | '-' :: rest => rest
  | '+' :: rest => rest
  | rest => rest

/-- A run of digits and bars that begins with a digit. -/
def beginsWithDigit (s : List Char) : Bool := s.head?.any isDigitChar

/-- Groups of one or two digits below 60, each after a colon; at least one group. Gives what
follows the groups, which is no colon. -/
def sexagesimal? : (fuel : Nat) → List Char → Option (List Char)
  | 0, _ => none
  | fuel + 1, ':' :: rest =>
    let digits := rest.takeWhile isDigitChar
    let fits := match digits with
      | [_] => true
      | [tens, _] => tens ≤ '5'
      | _ => false
    if !fits then none
    else
      let after := rest.drop digits.length
      if after.head? = some ':' then sexagesimal? fuel after else some after
  | _, _ => none

def isInteger (s : List Char) : Bool :=
  let body := unsigned s
  match body with
  | '0' :: 'b' :: digits =>
    !digits.isEmpty && digits.all fun c => c == '0' || c == '1' || c == '_'
  | '0' :: 'x' :: digits =>
    !digits.isEmpty && digits.all fun c => (hexValue? c).isSome || c == '_'
  | '0' :: digits => digits.all fun c => ('0' ≤ c && c ≤ '7') || c == '_'
  | _ =>
    beginsWithDigit body &&
      let rest := body.dropWhile isDigitOrBar
      rest.isEmpty || sexagesimal? (rest.length + 1) rest = some []

/-- An exponent must have its sign. -/
def isExponent : List Char → Bool
  | [] => true
  | e :: sign :: digits =>
    (e == 'e' || e == 'E') && (sign == '+' || sign == '-') && !digits.isEmpty &&
      digits.all isDigitChar
  | _ => false

def isFloat (s : List Char) : Bool :=
  let body := unsigned s
  let signed := body.length != s.length
  if !signed && [".nan", ".NaN", ".NAN"].any (·.toList == s) then true
  else if [".inf", ".Inf", ".INF"].any (·.toList == body) then true
  else match body with
    | '.' :: rest =>
      !signed && beginsWithDigit rest && isExponent (rest.dropWhile isDigitOrBar)
    | _ =>
      beginsWithDigit body &&
        match body.dropWhile isDigitOrBar with
        | '.' :: rest => isExponent (rest.dropWhile isDigitOrBar)
        | rest =>
          match sexagesimal? (rest.length + 1) rest with
          | some ('.' :: rest) => rest.all isDigitOrBar
          | _ => false

/-- The parts of a date with or without a time, as they are written. -/
structure Timestamp where
  year : List Char
  month : List Char
  day : List Char
  time : Option (List Char × List Char × List Char)
  fraction : List Char
  /-- Sign, hours and minutes of an offset; `none` inside for universal time. -/
  zone : Option (Option (Char × List Char × List Char))

/-- Between `least` and `most` digits, as many as there are. -/
def digitRun? (least most : Nat) (s : List Char) : Option (List Char × List Char) :=
  let digits := (s.takeWhile isDigitChar).take most
  if digits.length < least then none else some (digits, s.drop digits.length)

def expectChar? (c : Char) : List Char → Option (List Char)
  | d :: rest => if d = c then some rest else none
  | [] => none

def isIndent (c : Char) : Bool := c == ' ' || c == '\t'

def zone? (s : List Char) : Option (Option (Option (Char × List Char × List Char))) :=
  match s.dropWhile isIndent with
  | [] => if s.isEmpty then some none else none
  | ['Z'] => some (some none)
  | sign :: rest => do
    if sign ≠ '+' ∧ sign ≠ '-' then none
    let (hours, rest) ← digitRun? 1 2 rest
    match rest with
    | [] => return some (some (sign, hours, []))
    | _ =>
      let (minutes, rest) ← digitRun? 2 2 (← expectChar? ':' rest)
      if rest.isEmpty then some (some (some (sign, hours, minutes))) else none

def timestamp? (s : List Char) : Option Timestamp := do
  let (year, rest) ← digitRun? 4 4 s
  let (month, rest) ← digitRun? 1 2 (← expectChar? '-' rest)
  let (day, rest) ← digitRun? 1 2 (← expectChar? '-' rest)
  if rest.isEmpty then return ⟨year, month, day, none, [], none⟩
  let rest ← match rest with
    | c :: after =>
      if c = 'T' ∨ c = 't' then some after
      else if isIndent c then some (after.dropWhile isIndent)
      else none
    | [] => none
  let (hour, rest) ← digitRun? 1 2 rest
  let (minute, rest) ← digitRun? 2 2 (← expectChar? ':' rest)
  let (second, rest) ← digitRun? 2 2 (← expectChar? ':' rest)
  let (fraction, rest) := match rest with
    | '.' :: after => (after.takeWhile isDigitChar, after.dropWhile isDigitChar)
    | _ => ([], rest)
  return ⟨year, month, day, some (hour, minute, second), fraction, ← zone? rest⟩

/-- A plain text without a time is a date only with two digits for month and day. -/
def isTimestamp (s : List Char) : Bool :=
  match timestamp? s with
  | none => false
  | some t => t.time.isSome || (t.month.length == 2 && t.day.length == 2)

/-- A line feed at the very end does not change what a text looks like. -/
def withoutLastBreak (s : List Char) : List Char :=
  if s.getLast? = some '\n' then s.dropLast else s

def looksLike (words : List String) (s : List Char) : Bool := words.any (·.toList == s)

/-- The tag of a plain scalar by the looks of its text. -/
def plainTag (text : String) : String :=
  let s := withoutLastBreak text.toList
  if text == "\n" then standard "str"
  else if looksLike boolWords s then standard "bool"
  else if isFloat s then standard "float"
  else if isInteger s then standard "int"
  else if looksLike ["<<"] s then standard "merge"
  else if looksLike nullWords s then standard "null"
  else if isTimestamp s then standard "timestamp"
  else if looksLike ["="] s then standard "value"
  else if looksLike ["!", "&", "*"] s then standard "yaml"
  else standard "str"

end SessionPlan.Yaml
