import SessionPlan.Decimal.Reading
import SessionPlan.Text.Integer
import SessionPlan.Toml.Table

/-! Trees from TOML text. -/
namespace SessionPlan.Toml
open SessionPlan.Text SessionPlan.Calendar

def isSpace (c : Char) : Bool := c == ' ' || c == '\t'

def isSpaceOrBreak (c : Char) : Bool := isSpace c || c == '\n'

def skipSpace (s : List Char) : List Char := s.dropWhile isSpace

/-- Control characters may stand nowhere, save for tabs. -/
def isControl (c : Char) : Bool := (c.toNat < 0x20 || c.toNat == 0x7f) && c != '\t'

def isDigitChar (c : Char) : Bool := '0' ≤ c && c ≤ '9'

def isBareKeyChar (c : Char) : Bool :=
  ('A' ≤ c && c ≤ 'Z') || ('a' ≤ c && c ≤ 'z') || isDigitChar c || c == '-' || c == '_'

def hexValue? (c : Char) : Option Nat :=
  if isDigitChar c then some (c.toNat - 48)
  else if 'a' ≤ c && c ≤ 'f' then some (c.toNat - 87)
  else if 'A' ≤ c && c ≤ 'F' then some (c.toNat - 55)
  else none

/-! ### Strings -/

/-- The text before the first occurrence of `mark`, and the text from there. -/
def splitAt? (mark : List Char) : List Char → Option (List Char × List Char)
  | [] => none
  | c :: rest =>
    if mark.isPrefixOf (c :: rest) then some ([], c :: rest)
    else (splitAt? mark rest).map fun (before, after) => (c :: before, after)

/-- The text that begins with the first illegal character before `after`. -/
def firstIllegal? (illegal : Char → Bool) (before after : List Char) : Option (Char × List Char) :=
  match before with
  | [] => none
  | c :: rest =>
    if illegal c then some (c, before ++ after) else firstIllegal? illegal rest after

/-- Literal text up to its quotes. -/
def literalUntil (quote : List Char) (illegal : Char → Bool) (s : List Char) :
    Except Error (String × List Char) :=
  match splitAt? quote s with
  | none => .error ⟨.quoteMissing (String.ofList quote), []⟩
  | some (before, after) =>
    match firstIllegal? illegal before after with
    | some (c, rest) => .error ⟨.characterInvalid c, rest⟩
    | none => .ok (String.ofList before, after.drop quote.length)

def literalString (s : List Char) : Except Error (String × List Char) :=
  literalUntil ['\''] isControl s

/-- Control characters that text over several lines may not hold. -/
def isControlInLines (c : Char) : Bool := isControl c && c != '\n'

def hexChar (count : Nat) (s : List Char) : Except Error (Char × List Char) :=
  let digits := s.take count
  match digits.mapM hexValue? with
  | none => .error ⟨.hexDigits, s⟩
  | some values =>
    let n := values.foldl (fun n d => 16 * n + d) 0
    let rest := s.drop count
    if digits.length < count then .error ⟨.hexDigits, s⟩
    else if n.isValidChar then .ok (Char.ofNat n, rest)
    else .error ⟨.notScalar, rest⟩

def escapes : List (Char × Char) :=
  [('b', '\x08'), ('t', '\t'), ('n', '\n'), ('f', '\x0c'), ('r', '\r'), ('"', '"'), ('\\', '\\')]

/-- What follows a backslash. In text over several lines it may end its line, and then takes all
white space with it. -/
def escapeSequence (multiline : Bool) (s : List Char) : Except Error (List Char × List Char) :=
  match s with
  | [] => .error ⟨.escape, []⟩
  | c :: rest =>
    if multiline && isSpaceOrBreak c then
      match skipSpace (c :: rest) with
      | [] => .ok ([], [])
      | '\n' :: after => .ok ([], after.dropWhile isSpaceOrBreak)
      | after => .error ⟨.escape, after⟩
    else if c = 'u' then (hexChar 4 rest).map fun (ch, rest) => ([ch], rest)
    else if c = 'U' then (hexChar 8 rest).map fun (ch, rest) => ([ch], rest)
    else match escapes.lookup c with
      | some ch => .ok ([ch], rest)
      | none => .error ⟨.escape, rest⟩

/-- Text in double quotes, up to the quotes that end it. Every step takes a character. -/
def basicChars (multiline : Bool) : (fuel : Nat) → List Char → Except Error (List Char × List Char)
  | _, [] => .error ⟨.stringOpen, []⟩
  | 0, s => .error ⟨.stringOpen, s⟩
  | fuel + 1, c :: rest =>
    if c = '"' && !multiline then .ok ([], rest)
    else if c = '"' && "\"\"".toList.isPrefixOf rest then .ok ([], rest.drop 2)
    else if c = '\\' then do
      let (piece, rest) ← escapeSequence multiline rest
      let (more, rest) ← basicChars multiline fuel rest
      return (piece ++ more, rest)
    else if isControl c && !(multiline && c == '\n') then
      .error ⟨.characterIllegal c, c :: rest⟩
    else do
      let (more, rest) ← basicChars multiline fuel rest
      return (c :: more, rest)

def basicString (s : List Char) : Except Error (String × List Char) := do
  let (text, rest) ← basicChars false (s.length + 1) s
  return (String.ofList text, rest)

/-- One or two quotes directly before the closing ones belong to the text. -/
def extraQuotes (quote : Char) (text : String) (s : List Char) : String × List Char :=
  match s with
  | a :: b :: rest =>
    if a = quote then if b = quote then (text.push a |>.push b, rest) else (text.push a, b :: rest)
    else (text, s)
  | [a] => if a = quote then (text.push a, []) else (text, s)
  | [] => (text, [])

/-- A line feed directly after the opening quotes is no part of the text. -/
def multilineString (literal : Bool) (s : List Char) : Except Error (String × List Char) := do
  let s := if s.head? = some '\n' then s.drop 1 else s
  if literal then
    let (text, rest) ← literalUntil "'''".toList isControlInLines s
    return extraQuotes '\'' text rest
  else
    let (text, rest) ← basicChars true (s.length + 1) s
    return extraQuotes '"' (String.ofList text) rest

/-! ### Keys -/

def keyPart (s : List Char) : Except Error (String × List Char) :=
  match s with
  | '\'' :: rest => literalString rest
  | '"' :: rest => basicString rest
  | _ =>
    let name := s.takeWhile isBareKeyChar
    if name.isEmpty then .error ⟨.keyStart, s⟩ else .ok (String.ofList name, s.drop name.length)

/-- Parts with dots between them; spaces around the dots do not count. -/
def keyFrom : (fuel : Nat) → List Char → Except Error (Key × List Char)
  | 0, s => .error ⟨.keyStart, s⟩
  | fuel + 1, s => do
    let (part, rest) ← keyPart s
    match skipSpace rest with
    | '.' :: rest =>
      let (parts, rest) ← keyFrom fuel (skipSpace rest)
      return (part :: parts, rest)
    | rest => return ([part], rest)

def key (s : List Char) : Except Error (Key × List Char) := keyFrom (s.length + 1) s

/-! ### Numbers, dates and times -/

/-- Digits of a kind with single underscores between them. -/
def barredDigits (isDigit : Char → Bool) : List Char → List Char × List Char
  | '_' :: c :: rest =>
    if isDigit c then
      let (digits, rest) := barredDigits isDigit rest
      (c :: digits, rest)
    else ([], '_' :: c :: rest)
  | c :: rest =>
    if isDigit c then
      let (digits, rest) := barredDigits isDigit rest
      (c :: digits, rest)
    else ([], c :: rest)
  | [] => ([], [])

/-- Like `barredDigits`, for a text that must begin with a digit. -/
def digits (isDigit : Char → Bool) (s : List Char) : List Char × List Char :=
  if s.head?.any isDigit then barredDigits isDigit s else ([], s)

def natOf (base : Nat) (ds : List Char) : Nat :=
  ds.foldl (fun n c => base * n + (hexValue? c).getD 0) 0

/-- An integer in base 16, 8 or 2, after its mark. -/
def markedInteger? (s : List Char) : Option (Nat × List Char) :=
  let read (base : Nat) (isDigit : Char → Bool) (rest : List Char) :=
    let (ds, rest) := digits isDigit rest
    if ds.isEmpty then none else some (natOf base ds, rest)
  match s with
  | '0' :: 'x' :: rest => read 16 (fun c => (hexValue? c).isSome) rest
  | '0' :: 'o' :: rest => read 8 (fun c => '0' ≤ c && c ≤ '7') rest
  | '0' :: 'b' :: rest => read 2 (fun c => c == '0' || c == '1') rest
  | _ => none

/-- A fraction has a digit after its point. -/
def fraction (s : List Char) : List Char × List Char :=
  match s with
  | '.' :: rest =>
    let (ds, after) := digits isDigitChar rest
    if ds.isEmpty then ([], s) else (ds, after)
  | _ => ([], s)

def exponent? (s : List Char) : Option (Int × List Char) :=
  match s with
  | e :: rest =>
    if e = 'e' ∨ e = 'E' then
      let (negative, rest) := match rest with
        | '-' :: r => (true, r)
        | '+' :: r => (false, r)
        | r => (false, r)
      let (ds, rest) := digits isDigitChar rest
      let n : Int := natOf 10 ds
      if ds.isEmpty then none else some (if negative then -n else n, rest)
    else none
  | [] => none

/-- A decimal number: a leading zero stands alone before the point. An integer may be too long. -/
def decimal? (s : List Char) : Option (Except Error (Tree × List Char)) :=
  let (negative, body) := match s with
    | '-' :: rest => (true, rest)
    | '+' :: rest => (false, rest)
    | rest => (false, rest)
  let (whole, rest) := match body with
    | '0' :: rest => (['0'], rest)
    | _ => digits isDigitChar body
  if whole.isEmpty then none
  else
    let (part, rest) := fraction rest
    let coefficient := natOf 10 (whole ++ part)
    match exponent? rest with
    | some (e, rest) =>
      some (.ok (.real (Decimal.ofScaled negative coefficient (e - part.length)), rest))
    | none =>
      some <|
        if !part.isEmpty then
          .ok (.real (Decimal.ofScaled negative coefficient (-(part.length : Int))), rest)
        else if allowsDigits (some digitLimit) whole.length then
          .ok (.int (if negative then -(coefficient : Int) else coefficient), rest)
        else .error ⟨.overlong whole.length, s⟩

def number? (s : List Char) : Option (Except Error (Tree × List Char)) :=
  match markedInteger? s with
  | some (n, rest) => some (.ok (.int n, rest))
  | none => decimal? s

/-- Exactly two digits that write a number from `least` to `most`. -/
def twoDigits? (least most : Nat) : List Char → Option (Nat × List Char)
  | a :: b :: rest =>
    let n := natOf 10 [a, b]
    if isDigitChar a && isDigitChar b && least ≤ n && n ≤ most then some (n, rest) else none
  | _ => none

def expect? (c : Char) : List Char → Option (List Char)
  | d :: rest => if c = d then some rest else none
  | [] => none

/-- Digits of a second beyond the sixth are read and dropped. -/
def secondFraction (s : List Char) : Nat × List Char :=
  match s with
  | '.' :: rest =>
    let ds := rest.takeWhile isDigitChar
    let kept := ds.take 6
    if ds.isEmpty then (0, s)
    else (natOf 10 (kept ++ List.replicate (6 - kept.length) '0'), rest.drop ds.length)
  | _ => (0, s)

def clock? (s : List Char) : Option (Clock × List Char) := do
  let (hour, rest) ← twoDigits? 0 23 s
  let (minute, rest) ← twoDigits? 0 59 (← expect? ':' rest)
  let (second, rest) ← twoDigits? 0 59 (← expect? ':' rest)
  let (microsecond, rest) := secondFraction rest
  return (⟨hour, minute, second, microsecond⟩, rest)

def date? (s : List Char) : Option (Date × List Char) := do
  let year := s.take 4
  if year.length < 4 || !year.all isDigitChar then none
  let (month, rest) ← twoDigits? 1 12 (← expect? '-' (s.drop 4))
  let (day, rest) ← twoDigits? 1 31 (← expect? '-' rest)
  return (⟨natOf 10 year, month, day⟩, rest)

def numericOffset? (sign : Char) (s : List Char) : Option (Int × List Char) := do
  if sign ≠ '+' ∧ sign ≠ '-' then none
  let (hours, rest) ← twoDigits? 0 23 s
  let (minutes, rest) ← twoDigits? 0 59 (← expect? ':' rest)
  let seconds : Int := hours * 3600 + minutes * 60
  return (if sign = '-' then -seconds else seconds, rest)

/-- An offset from universal time in seconds, if one follows. -/
def offset (s : List Char) : Option Int × List Char :=
  match s with
  | c :: rest =>
    if c = 'Z' ∨ c = 'z' then (some 0, rest)
    else match numericOffset? c rest with
      | some (seconds, rest) => (some seconds, rest)
      | none => (none, s)
  | [] => (none, [])

/-- A date, with a time of day if one follows. -/
def dateOrMoment? (s : List Char) : Option (Date × Option (Clock × Option Int) × List Char) := do
  let (date, rest) ← date? s
  let timed : Option (Clock × List Char) := match rest with
    | c :: after => if c = 'T' ∨ c = 't' ∨ c = ' ' then clock? after else none
    | [] => none
  match timed with
  | none => return (date, none, rest)
  | some (clock, rest) =>
    let (seconds, rest) := offset rest
    return (date, some (clock, seconds), rest)

/-- Words that are numbers. -/
def specialNumbers : List (List Char × Float) :=
  [("inf".toList, Decimal.infinity false), ("nan".toList, Decimal.nan),
   ("-inf".toList, Decimal.infinity true), ("+inf".toList, Decimal.infinity false),
   ("-nan".toList, Decimal.nan), ("+nan".toList, Decimal.nan)]

/-- A value without parts. Its place in the text is the source of a NaN. -/
def scalar (s : List Char) : Except Error (Tree × List Char) :=
  match dateOrMoment? s with
  | some (date, time, rest) =>
    if date.flaw?.isSome then .error ⟨.date, s⟩
    else match time with
      | none => .ok (.date date, rest)
      | some (clock, offset) => .ok (.moment ⟨date, clock, offset⟩, rest)
  | none =>
    match clock? s, number? s with
    | some (clock, rest), _ => .ok (.clock clock, rest)
    | none, some found => found
    | none, none =>
      match specialNumbers.find? fun (word, _) => word.isPrefixOf s with
      | some (word, x) => .ok (.ofFloat s.length x, s.drop word.length)
      | none => .error ⟨.value, s⟩

/-! ### Values -/

/-- The rest of a comment, which a control character may not stand in. -/
def comment (s : List Char) : Except Error (List Char) :=
  match s with
  | '#' :: rest =>
    let text := rest.takeWhile (· != '\n')
    let after := rest.drop text.length
    match firstIllegal? isControl text after with
    | some (c, found) => .error ⟨.characterInvalid c, found⟩
    | none => .ok after
  | _ => .ok s

/-- White space, line ends and comments inside an array. -/
def arraySpace : (fuel : Nat) → List Char → Except Error (List Char)
  | 0, s => .ok s
  | fuel + 1, s => do
    let after := s.dropWhile isSpaceOrBreak
    if after.head? = some '#' then arraySpace fuel (← comment after) else return after

def skipArraySpace (s : List Char) : Except Error (List Char) := arraySpace (s.length + 1) s

/-- The content of an inline table so far, and the keys in it that are closed. -/
structure Inline where
  table : Table
  closed : Closed

def Inline.assign (t : Inline) (key : Key) (value : Tree) : Except Flaw Inline := do
  if t.closed.isFrozen key then throw (.immutable key)
  let name := key.getLast?.getD ""
  let table ← updateAt false (addValue (.inlineKeyTwice name) name value) key.dropLast t.table
  return ⟨table, if holdsValues value then t.closed.freeze key else t.closed⟩

def placed (r : Except Flaw α) (rest : List Char) : Except Error α :=
  r.mapError fun flaw => ⟨flaw, rest⟩

mutual

/-- A value at the start of a text. Every part begins later, so fuel for twice the length of the
text is enough. -/
def value : (fuel : Nat) → List Char → Except Error (Tree × List Char)
  | 0, s => .error ⟨.value, s⟩
  | fuel + 1, s =>
    match s with
    | '"' :: '"' :: '"' :: rest =>
      (multilineString false rest).map fun (text, rest) => (.text text, rest)
    | '"' :: rest => (basicString rest).map fun (text, rest) => (.text text, rest)
    | '\'' :: '\'' :: '\'' :: rest =>
      (multilineString true rest).map fun (text, rest) => (.text text, rest)
    | '\'' :: rest => (literalString rest).map fun (text, rest) => (.text text, rest)
    | '[' :: rest => do
      let rest ← skipArraySpace rest
      let (found, rest) ← items fuel rest
      return (.list found, rest)
    | '{' :: rest =>
      match skipSpace rest with
      | '}' :: rest => .ok (.mapping [], rest)
      | rest => do
        let (found, rest) ← inlineEntries fuel ⟨[], {}⟩ rest
        return (.mapping found, rest)
    | _ =>
      if "true".toList.isPrefixOf s then .ok (.flag true, s.drop 4)
      else if "false".toList.isPrefixOf s then .ok (.flag false, s.drop 5)
      else scalar s

/-- The items of an array up to its bracket. A comma may stand before the bracket. -/
def items : (fuel : Nat) → List Char → Except Error (List Tree × List Char)
  | 0, s => .error ⟨.value, s⟩
  | fuel + 1, s =>
    match s with
    | ']' :: rest => .ok ([], rest)
    | s => do
      let (first, rest) ← value fuel s
      match ← skipArraySpace rest with
      | ']' :: rest => return ([first], rest)
      | ',' :: rest =>
        let (others, rest) ← items fuel (← skipArraySpace rest)
        return (first :: others, rest)
      | rest => throw ⟨.arrayOpen, rest⟩

/-- The pairs of an inline table up to its brace. -/
def inlineEntries : (fuel : Nat) → Inline → List Char → Except Error (Table × List Char)
  | 0, _, s => .error ⟨.value, s⟩
  | fuel + 1, t, s => do
    let (key, found, rest) ← pair fuel s
    let t ← placed (t.assign key found) rest
    match skipSpace rest with
    | '}' :: rest => return (t.table, rest)
    | ',' :: rest => inlineEntries fuel t (skipSpace rest)
    | rest => throw ⟨.inlineOpen, rest⟩

/-- A key with its value. -/
def pair : (fuel : Nat) → List Char → Except Error (Key × Tree × List Char)
  | 0, s => .error ⟨.value, s⟩
  | fuel + 1, s => do
    let (key, rest) ← key s
    match rest with
    | '=' :: rest =>
      let (found, rest) ← value fuel (skipSpace rest)
      return (key, found, rest)
    | rest => throw ⟨.equals, rest⟩

end

/-! ### Documents -/

def tableHeader (d : Draft) (s : List Char) : Except Error (Draft × List Char) := do
  let (key, rest) ← key (skipSpace s)
  let d ← placed ({ d with closed := d.closed.settle }.openTable key) rest
  match rest with
  | ']' :: rest => return (d, rest)
  | _ => throw ⟨.tableEnd, rest⟩

def arrayTableHeader (d : Draft) (s : List Char) : Except Error (Draft × List Char) := do
  let (key, rest) ← key (skipSpace s)
  let d ← placed ({ d with closed := d.closed.settle }.openArrayTable key) rest
  match rest with
  | ']' :: ']' :: rest => return (d, rest)
  | _ => throw ⟨.arrayTableEnd, rest⟩

/-- A statement at its first character, which is no space. -/
def statement (d : Draft) (s : List Char) : Except Error (Draft × List Char) :=
  match s with
  | '[' :: '[' :: rest => arrayTableHeader d rest
  | '[' :: rest => tableHeader d rest
  | '#' :: _ => .ok (d, s)
  | c :: _ =>
    if isBareKeyChar c || c == '"' || c == '\'' then do
      let (key, found, rest) ← pair (2 * s.length + 2) s
      return (← placed (d.assign key found) rest, rest)
    else .error ⟨.statement, s⟩
  | [] => .ok (d, [])

/-- One statement a line, up to the end of the text. -/
def statements : (fuel : Nat) → Draft → List Char → Except Error Draft
  | 0, d, _ => .ok d
  | fuel + 1, d, s => do
    match skipSpace s with
    | [] => return d
    | '\n' :: rest => statements fuel d rest
    | s =>
      let (d, rest) ← statement d s
      match ← comment (skipSpace rest) with
      | [] => return d
      | '\n' :: rest => statements fuel d rest
      | rest => throw ⟨.lineEnd, rest⟩

/-- A carriage return before a line feed does not count. -/
def plainBreaks : List Char → List Char
  | [] => []
  | '\r' :: '\n' :: rest => '\n' :: plainBreaks rest
  | c :: rest => c :: plainBreaks rest

/-- Reads a document as the entries of its outermost table. -/
def parse (text : String) : Except Refusal Table :=
  let s := plainBreaks text.toList
  match statements (s.length + 1) {} s with
  | .ok d => .ok d.tables
  | .error e => .error (e.refusal s)

end SessionPlan.Toml
