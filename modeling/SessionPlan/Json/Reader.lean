import SessionPlan.Decimal.Reading
import SessionPlan.Text.Integer
import SessionPlan.Text.Utf8
import SessionPlan.Tree.Basic

/-! Trees from JSON text. Besides the standard's values the words `NaN`, `Infinity` and
`-Infinity` are read. Of equal keys the last value counts, at the place of the first. -/
namespace SessionPlan.Json
open SessionPlan.Text

inductive Flaw where
  | value | extra | keyQuote | colon | comma | openString | control | escape | unicodeEscape
  | byteOrderMark
  /-- An integer has more digits than are allowed. -/
  | overlong (digits : Nat)
  /-- One half of a character without the other: there is no such text here. -/
  | halfCharacter
  deriving DecidableEq, Repr

def Flaw.words : Flaw → String
  | .value => "Expecting value"
  | .extra => "Extra data"
  | .keyQuote => "Expecting property name enclosed in double quotes"
  | .colon => "Expecting ':' delimiter"
  | .comma => "Expecting ',' delimiter"
  | .openString => "Unterminated string starting at"
  | .control => "Invalid control character at"
  | .escape => "Invalid \\escape"
  | .unicodeEscape => "Invalid \\uXXXX escape"
  | .byteOrderMark => "Unexpected UTF-8 BOM (decode using utf-8-sig)"
  | .overlong digits => overlongWords digits
  | .halfCharacter => halfCharacterWords

/-- What is wrong, and the text that begins there. -/
structure Error where
  flaw : Flaw
  rest : List Char
  deriving DecidableEq, Repr

def isSpace (c : Char) : Bool := c == ' ' || c == '\t' || c == '\n' || c == '\r'

def skipSpace (s : List Char) : List Char := s.dropWhile isSpace

def hexValue? (c : Char) : Option Nat :=
  if '0' ≤ c && c ≤ '9' then some (c.toNat - 48)
  else if 'a' ≤ c && c ≤ 'f' then some (c.toNat - 87)
  else if 'A' ≤ c && c ≤ 'F' then some (c.toNat - 55)
  else none

/-- The unit that four hexadecimal digits write. -/
def unit? : List Char → Option (Nat × List Char)
  | a :: b :: c :: d :: rest => do
    let a ← hexValue? a
    let b ← hexValue? b
    let c ← hexValue? c
    let d ← hexValue? d
    return (((a * 16 + b) * 16 + c) * 16 + d, rest)
  | _ => none

def isHighUnit (n : Nat) : Bool := 0xd800 ≤ n && n < 0xdc00
def isLowUnit (n : Nat) : Bool := 0xdc00 ≤ n && n < 0xe000

/-- The second unit of a character, where one follows. A unit that is none of these is left to be
read again. -/
def lowUnit? (s : List Char) : Except Unit (Option (Nat × List Char)) :=
  match s with
  | '\\' :: 'u' :: digits =>
    if digits.length < 5 then .ok none
    else match unit? digits with
      | none => .error ()
      | some (n, rest) => .ok (if isLowUnit n then some (n, rest) else none)
  | _ => .ok none

/-- The character after `\u`, or after two of them. The digits may not be the last characters of the
text. -/
def unicodeEscape (s : List Char) : Except Error (Char × List Char) :=
  if s.length < 5 then .error ⟨.unicodeEscape, s⟩
  else match unit? s with
    | none => .error ⟨.unicodeEscape, s⟩
    | some (n, rest) =>
      if isHighUnit n then
        match lowUnit? rest with
        | .error () => .error ⟨.unicodeEscape, rest⟩
        | .ok (some (m, rest')) =>
          .ok (Char.ofNat (0x10000 + (n - 0xd800) * 0x400 + (m - 0xdc00)), rest')
        | .ok none => .error ⟨.halfCharacter, rest⟩
      else if isLowUnit n then .error ⟨.halfCharacter, rest⟩
      else .ok (Char.ofNat n, rest)

def simpleEscape? (c : Char) : Option Char :=
  [('"', '"'), ('\\', '\\'), ('/', '/'), ('b', '\x08'), ('f', '\x0c'), ('n', '\n'), ('r', '\r'),
   ('t', '\t')].lookup c

/-- The characters of a string up to its closing quote. `start` is the text from the opening one;
each step reads a character at least, so fuel for the length of the text is enough. -/
def stringChars (start : List Char) :
    (fuel : Nat) → List Char → Except Error (List Char × List Char)
  | 0, _ => .error ⟨.openString, start⟩
  | _, [] => .error ⟨.openString, start⟩
  | _, '"' :: rest => .ok ([], rest)
  | _, '\\' :: [] => .error ⟨.openString, start⟩
  | fuel + 1, '\\' :: 'u' :: rest => do
    let (c, rest) ← unicodeEscape rest
    let (cs, rest) ← stringChars start fuel rest
    return (c :: cs, rest)
  | fuel + 1, '\\' :: e :: rest =>
    match simpleEscape? e with
    | none => .error ⟨.escape, '\\' :: e :: rest⟩
    | some c => do
      let (cs, rest) ← stringChars start fuel rest
      return (c :: cs, rest)
  | fuel + 1, c :: rest =>
    if c.toNat < 0x20 then .error ⟨.control, c :: rest⟩
    else do
      let (cs, rest) ← stringChars start fuel rest
      return (c :: cs, rest)

/-- The string whose opening quote has been read. -/
def stringAfterQuote (rest : List Char) : Except Error (String × List Char) := do
  let (cs, rest) ← stringChars ('"' :: rest) (rest.length + 1) rest
  return (String.ofList cs, rest)

def isAsciiDigit (c : Char) : Bool := '0' ≤ c && c ≤ '9'

def natOfDigits (digits : List Char) : Nat :=
  digits.foldl (fun n c => 10 * n + (c.toNat - 48)) 0

/-- A fraction needs a digit after its point. -/
def fraction : List Char → List Char × List Char
  | '.' :: c :: rest =>
    if isAsciiDigit c then ((c :: rest).takeWhile isAsciiDigit, (c :: rest).dropWhile isAsciiDigit)
    else ([], '.' :: c :: rest)
  | s => ([], s)

/-- An exponent needs a digit; without one the letter is not part of the number. -/
def exponent? : List Char → Option (Int × List Char)
  | e :: rest =>
    if e = 'e' ∨ e = 'E' then
      let (negative, digits) := match rest with
        | '-' :: r => (true, r)
        | '+' :: r => (false, r)
        | r => (false, r)
      let ds := digits.takeWhile isAsciiDigit
      let n : Int := natOfDigits ds
      if ds.isEmpty then none
      else some (if negative then -n else n, digits.dropWhile isAsciiDigit)
    else none
  | [] => none

/-- A number without its sign, at its first digit. A leading zero stands alone. The limit of digits
is for integers only. -/
def number (limit : Option Nat) (negative : Bool) (s : List Char) :
    Except Error (Tree × List Char) :=
  let whole := if s.head? = some '0' then ['0'] else s.takeWhile isAsciiDigit
  let rest := s.drop whole.length
  let (digits, rest) := fraction rest
  let coefficient := natOfDigits (whole ++ digits)
  match exponent? rest with
  | some (e, rest) =>
    .ok (.real (Decimal.ofScaled negative coefficient (e - digits.length)), rest)
  | none =>
    if !digits.isEmpty then
      .ok (.real (Decimal.ofScaled negative coefficient (-(digits.length : Int))), rest)
    else if allowsDigits limit whole.length then
      .ok (.int (if negative then -(coefficient : Int) else coefficient), rest)
    else .error ⟨.overlong whole.length, s⟩

/-- The values that are words. The word for a NaN is the same NaN wherever it stands. -/
def keywords : List (List Char × Tree) :=
  [("null".toList, .null), ("true".toList, .flag true), ("false".toList, .flag false),
   ("NaN".toList, .nan 0), ("Infinity".toList, .real (Decimal.infinity false)),
   ("-Infinity".toList, .real (Decimal.infinity true))]

def keyword? (s : List Char) : Option (Tree × List Char) :=
  (keywords.find? fun (word, _) => word.isPrefixOf s).map fun (word, tree) =>
    (tree, s.drop word.length)

/-- A value without parts. -/
def scalar (limit : Option Nat) (s : List Char) : Except Error (Tree × List Char) :=
  match keyword? s with
  | some found => .ok found
  | none =>
    match s with
    | '"' :: rest => do
      let (text, rest) ← stringAfterQuote rest
      return (.text text, rest)
    | '-' :: c :: rest =>
      if isAsciiDigit c then number limit true (c :: rest) else .error ⟨.value, s⟩
    | c :: rest => if isAsciiDigit c then number limit false (c :: rest) else .error ⟨.value, s⟩
    | [] => .error ⟨.value, []⟩

mutual

/-- A value at the start of a text. Every nested value begins later in the text, so fuel for its
length is enough. -/
def value (limit : Option Nat) : (fuel : Nat) → List Char → Except Error (Tree × List Char)
  | 0, s => .error ⟨.value, s⟩
  | fuel + 1, '[' :: rest =>
    match skipSpace rest with
    | ']' :: rest => .ok (.list [], rest)
    | s => do
      let (found, rest) ← items limit fuel s
      return (.list found, rest)
  | fuel + 1, '{' :: rest =>
    match skipSpace rest with
    | '}' :: rest => .ok (.mapping [], rest)
    | s => do
      let (found, rest) ← members limit fuel s
      return (.mapping (Tree.ofPairs found), rest)
  | _, s => scalar limit s

/-- The items of an array up to its bracket. -/
def items (limit : Option Nat) : (fuel : Nat) → List Char → Except Error (List Tree × List Char)
  | 0, s => .error ⟨.value, s⟩
  | fuel + 1, s => do
    let (first, rest) ← value limit fuel s
    match skipSpace rest with
    | ']' :: rest => return ([first], rest)
    | ',' :: rest =>
      let (others, rest) ← items limit fuel (skipSpace rest)
      return (first :: others, rest)
    | rest => throw ⟨.comma, rest⟩

/-- The members of an object up to its brace. -/
def members (limit : Option Nat) :
    (fuel : Nat) → List Char → Except Error (List (Tree × Tree) × List Char)
  | 0, s => .error ⟨.value, s⟩
  | fuel + 1, s =>
    match s with
    | '"' :: rest => do
      let (key, rest) ← stringAfterQuote rest
      match skipSpace rest with
      | ':' :: rest =>
        let (first, rest) ← value limit fuel (skipSpace rest)
        match skipSpace rest with
        | '}' :: rest => return ([(.text key, first)], rest)
        | ',' :: rest =>
          let (others, rest) ← members limit fuel (skipSpace rest)
          return ((.text key, first) :: others, rest)
        | rest => throw ⟨.comma, rest⟩
      | rest => throw ⟨.colon, rest⟩
    | s => .error ⟨.keyQuote, s⟩

end

/-- Reads a whole text as one value. -/
def parseChars (limit : Option Nat) (s : List Char) : Except Error Tree := do
  if s.head? = some '\ufeff' then throw ⟨.byteOrderMark, s⟩
  let (tree, rest) ← value limit (2 * s.length + 2) (skipSpace s)
  match skipSpace rest with
  | [] => return tree
  | rest => throw ⟨.extra, rest⟩

/-- The number of the line on which the text `rest` begins in the whole text `s`. -/
def lineOf (s rest : List Char) : Nat := 1 + (s.count '\n' - rest.count '\n')

end SessionPlan.Json
