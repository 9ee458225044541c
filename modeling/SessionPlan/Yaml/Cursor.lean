import SessionPlan.Yaml.Flaw

/-! A place in YAML text: what is still to be read, and where that begins. Beyond the end stands
the character zero, which the text itself may not hold. -/
namespace SessionPlan.Yaml

structure Cursor where
  rest : List Char
  index : Nat
  line : Nat
  column : Nat

def isBreak (c : Char) : Bool :=
  c == '\n' || c == '\r' || c == '\u0085' || c == '\u2028' || c == '\u2029'

/-- The end of a line or of the text. -/
def endsLine (c : Char) : Bool := c == '\x00' || isBreak c

def endsLineOrSpace (c : Char) : Bool := c == ' ' || endsLine c

/-- What separates words. -/
def endsWord (c : Char) : Bool := c == '\t' || endsLineOrSpace c

def isNameChar (c : Char) : Bool :=
  ('0' ≤ c && c ≤ '9') || ('A' ≤ c && c ≤ 'Z') || ('a' ≤ c && c ≤ 'z') || c == '-' || c == '_'

def isDigitChar (c : Char) : Bool := '0' ≤ c && c ≤ '9'

namespace Cursor

def start (s : List Char) : Cursor := ⟨s, 0, 0, 0⟩

def peek (c : Cursor) : Char := c.rest.headD '\x00'

def peekAt (c : Cursor) (n : Nat) : Char := (c.rest.drop n).headD '\x00'

def next (c : Cursor) : Cursor :=
  match c.rest with
  | [] => c
  | ch :: rest =>
    if ch = '\r' ∧ rest.head? = some '\n' then ⟨rest, c.index + 1, c.line, c.column + 1⟩
    else if isBreak ch then ⟨rest, c.index + 1, c.line + 1, 0⟩
    else if ch = '\ufeff' then ⟨rest, c.index + 1, c.line, c.column⟩
    else ⟨rest, c.index + 1, c.line, c.column + 1⟩

def forward (c : Cursor) : Nat → Cursor
  | 0 => c
  | n + 1 => forward c.next n

/-- The longest run of characters that satisfy `p`, and the place after it. -/
def takeWhile (c : Cursor) (p : Char → Bool) : List Char × Cursor :=
  let run := c.rest.takeWhile p
  (run, c.forward run.length)

def skipWhile (c : Cursor) (p : Char → Bool) : Cursor := (c.takeWhile p).2

def skipSpaces (c : Cursor) : Cursor := c.skipWhile (· == ' ')

def skipToLineEnd (c : Cursor) : Cursor := c.skipWhile (!isBreak ·)

/-- A line break as the one character it counts as. -/
def lineBreak? (c : Cursor) : Option (Char × Cursor) :=
  match c.rest with
  | '\r' :: '\n' :: _ => some ('\n', c.forward 2)
  | ch :: _ =>
    if ch = '\u2028' ∨ ch = '\u2029' then some (ch, c.next)
    else if isBreak ch then some ('\n', c.next)
    else none
  | [] => none

/-- Steps over a line break, if one is there. -/
def skipBreak (c : Cursor) : Cursor := (c.lineBreak?.map Prod.snd).getD c

/-- Whether a line of three dashes or three points begins here. -/
def atMarker (c : Cursor) (mark : Char) : Bool :=
  c.peek == mark && c.peekAt 1 == mark && c.peekAt 2 == mark && endsWord (c.peekAt 3)

def atSeparator (c : Cursor) : Bool := c.atMarker '-' || c.atMarker '.'

/-- Stops with a flaw on the current line. -/
def fail (c : Cursor) (flaw : Flaw) : Except Error α := .error (.flaw flaw (some c.line))

end Cursor

/-- Characters that YAML text may hold. -/
def isAccepted (c : Char) : Bool :=
  let n := c.toNat
  n == 0x9 || n == 0xa || n == 0xd || (0x20 ≤ n && n ≤ 0x7e) || n == 0x85 ||
    (0xa0 ≤ n && n ≤ 0xd7ff) || (0xe000 ≤ n && n ≤ 0xfffd) || 0x10000 ≤ n

/-- The first character that is not accepted, with its position. -/
def firstUnaccepted? (position : Nat) : List Char → Option (Char × Nat)
  | [] => none
  | c :: rest => if isAccepted c then firstUnaccepted? (position + 1) rest else some (c, position)

end SessionPlan.Yaml
