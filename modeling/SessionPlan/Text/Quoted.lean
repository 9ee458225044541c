import SessionPlan.Text.Printable

/-! Text as messages quote it: between quotes, in one line, with every character that would not
show written as an escape. -/
namespace SessionPlan.Text

def hexDigit (n : Nat) : Char := if n < 10 then Char.ofNat (48 + n) else Char.ofNat (87 + n)

/-- `n` in base sixteen, the last `width` digits. -/
def hex : (width : Nat) → (n : Nat) → List Char
  | 0, _ => []
  | width + 1, n => hex width (n / 16) ++ [hexDigit (n % 16)]

/-- Two, four or eight hexadecimal digits, the fewest that hold the code point. -/
def hexEscape (n : Nat) : List Char :=
  if n < 0x100 then '\\' :: 'x' :: hex 2 n
  else if n < 0x10000 then '\\' :: 'u' :: hex 4 n
  else '\\' :: 'U' :: hex 8 n

def quotedChar (quote c : Char) : List Char :=
  if c = quote ∨ c = '\\' then ['\\', c]
  else if c = '\t' then ['\\', 't']
  else if c = '\n' then ['\\', 'n']
  else if c = '\r' then ['\\', 'r']
  else if isPrintable c then [c]
  else hexEscape c.toNat

/-- Single quotes, unless the text holds some and no double quote. -/
def quoteMark (s : List Char) : Char := if s.contains '\'' && !s.contains '"' then '"' else '\''

def quotedList (s : List Char) : List Char :=
  let quote := quoteMark s
  quote :: s.flatMap (quotedChar quote) ++ [quote]

def quoted (s : String) : String := String.ofList (quotedList s.toList)

example : quotedList "it's".toList = "\"it's\"".toList := by decide
example : quotedList "a\n'\"\x07".toList = "'a\\n\\'\"\\x07'".toList := by decide

/-- Bytes as messages quote them: ASCII as in text, every other byte as two digits. -/
def quotedBytes (bytes : List UInt8) : String :=
  let chars := bytes.map fun b => Char.ofNat b.toNat
  let quote := quoteMark chars
  let body := chars.flatMap fun c =>
    if c.toNat < 0x80 then quotedChar quote c else '\\' :: 'x' :: hex 2 c.toNat
  String.ofList ('b' :: quote :: body ++ [quote])

end SessionPlan.Text
