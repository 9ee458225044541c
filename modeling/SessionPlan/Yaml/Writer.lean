import SessionPlan.Tree.Shown
import SessionPlan.Yaml.PlainTag

/-! Trees as YAML text in block style. A sequence under a key stands at the key's own indentation;
texts are plain where they read back as they are, else in single quotes, else in double quotes with
escapes. Lines are broken at a space once they have passed the width. -/
namespace SessionPlan.Yaml
open SessionPlan.Text

/-- Lines are broken at the first chance past this column. -/
def width : Nat := 80

/-! ### Which style a text may have -/

def isTextBreak (c : Char) : Bool :=
  c == '\n' || c == '\u0085' || c == '\u2028' || c == '\u2029'

/-- Characters that only an escape can write. -/
def needsEscape (c : Char) : Bool :=
  let n := c.toNat
  !(c == '\n' || (0x20 ≤ n && n ≤ 0x7e) || n == 0x85 || (0xa0 ≤ n && n ≤ 0xd7ff) ||
    (0xe000 ≤ n && n ≤ 0xfffd && n != 0xfeff) || (0x10000 ≤ n && n < 0x10ffff))

/-- Characters that cannot begin a plain text. -/
def isLeadingIndicator (c : Char) : Bool := "#,[]\x7b\x7d&*!|>'\"%@`".toList.contains c

/-- A colon before a space, or a sharp after one, anywhere behind the first character. -/
def holdsIndicator (previous : Char) : List Char → Bool
  | [] => false
  | c :: rest =>
    (c == ':' && endsWord (rest.headD ' ')) || (c == '#' && endsWord previous) ||
      holdsIndicator c rest

/-- Whether a text would be read as something other than a plain text. -/
def holdsBlockIndicator : List Char → Bool
  | [] => false
  | c :: rest =>
    let followed := endsWord (rest.headD ' ')
    "---".toList.isPrefixOf (c :: rest) || "...".toList.isPrefixOf (c :: rest) ||
      isLeadingIndicator c || ((c == '?' || c == ':' || c == '-') && followed) ||
      holdsIndicator c rest

/-- Whether a character of the first kind stands directly before one of the second. -/
def holdsPair (p q : Char → Bool) : List Char → Bool
  | c :: d :: rest => (p c && q d) || holdsPair p q (d :: rest)
  | _ => false

def isSpaceOrBreak (c : Char) : Bool := c == ' ' || isTextBreak c

/-- The shape of a text alone; what a plain text would be read as is another matter. -/
def allowsPlain (s : List Char) : Bool :=
  !(s.head?.any isSpaceOrBreak || s.getLast?.any isSpaceOrBreak || s.any isTextBreak ||
    s.any needsEscape || holdsBlockIndicator s)

/-- Spaces around a break, like characters that need an escape, do not survive single quotes. -/
def allowsSingleQuotes (s : List Char) : Bool :=
  !(holdsPair isTextBreak (· == ' ') s || holdsPair (· == ' ') isTextBreak s || s.any needsEscape)

inductive Style where
  | plain | single | double
  deriving DecidableEq, Repr

/-- A key stands on one line and is not plain if empty. -/
def styleOf (text : String) (isKey : Bool) : Style :=
  let s := text.toList
  let plain := plainTag text == standard "str" && allowsPlain s && !(isKey && s.isEmpty)
  if plain then .plain
  else if allowsSingleQuotes s && !(isKey && s.any isTextBreak) then .single
  else .double

/-! ### The page -/

/-- Text so far, last character first, with the state of its last line: its length, whether a
space ends it, and whether it holds only indentation and dashes. -/
structure Page where
  written : List Char
  column : Nat
  spaced : Bool
  bare : Bool

namespace Page

def empty : Page := ⟨[], 0, true, true⟩

def text (p : Page) : String := String.ofList p.written.reverse

def put (p : Page) (s : List Char) : Page :=
  { p with written := s.reverse ++ p.written, column := p.column + s.length }

def breakLine (p : Page) (c : Char) : Page := ⟨c :: p.written, 0, true, true⟩

/-- Moves to the column `indent`, on a new line unless the current one is bare up to there. -/
def indentTo (p : Page) (indent : Nat) : Page :=
  let p := if !p.bare || indent < p.column || (p.column == indent && !p.spaced)
    then p.breakLine '\n' else p
  if p.column < indent then
    { p.put (List.replicate (indent - p.column) ' ') with spaced := true }
  else p

/-- An indicator, after a space if it needs one. -/
def indicator (p : Page) (s : List Char) (apart spaced bare : Bool) : Page :=
  let p := p.put (if p.spaced || !apart then s else ' ' :: s)
  { p with spaced, bare := p.bare && bare }

end Page

/-! ### Scalars -/

inductive RunKind where
  | word | spaces | breaks
  deriving DecidableEq, Repr

def runKind (c : Char) : RunKind :=
  if c = ' ' then .spaces else if isTextBreak c then .breaks else .word

/-- Cuts a text into its longest runs of one kind. -/
def runs : List Char → List (RunKind × List Char)
  | [] => []
  | c :: rest =>
    match runs rest with
    | (kind, run) :: others =>
      if kind = runKind c then (kind, c :: run) :: others
      else (runKind c, [c]) :: (kind, run) :: others
    | [] => [(runKind c, [c])]

/-- A single space past the width becomes a line break. -/
def breaksAt (p : Page) (split : Bool) (run : List Char) : Bool :=
  split && run.length == 1 && width < p.column

def plainRuns (split : Bool) (indent : Nat) : List (RunKind × List Char) → Page → Page
  | [], p => p
  | (kind, run) :: rest, p =>
    let p := if kind = .spaces && breaksAt p split run
      then { p.indentTo indent with spaced := false, bare := false }
      else p.put run
    plainRuns split indent rest p

def writePlain (s : List Char) (split : Bool) (indent : Nat) (p : Page) : Page :=
  if s.isEmpty then p
  else
    let p := if p.spaced then p else p.put [' ']
    plainRuns split indent (runs s) { p with spaced := false, bare := false }

/-- Breaks in single quotes. Between two lines a line feed is written twice, since a single break
reads as a space. -/
def writeBreaks (run : List Char) (p : Page) : Page :=
  let p := if run.head? = some '\n' then p.breakLine '\n' else p
  run.foldl Page.breakLine p

def singleRuns (split : Bool) (indent : Nat) (first : Bool) :
    List (RunKind × List Char) → Page → Page
  | [], p => p
  | (kind, run) :: rest, p =>
    let p := match kind with
      | .spaces =>
        if breaksAt p split run && !first && !rest.isEmpty then p.indentTo indent else p.put run
      | .breaks => (writeBreaks run p).indentTo indent
      | .word => p.put (run.flatMap fun c => if c = '\'' then ['\'', '\''] else [c])
    singleRuns split indent false rest p

def writeSingle (s : List Char) (split : Bool) (indent : Nat) (p : Page) : Page :=
  let p := p.indicator ['\''] true false false
  (singleRuns split indent true (runs s) p).indicator ['\''] false false false

def escapeNames : List (Char × Char) :=
  [('\x00', '0'), ('\x07', 'a'), ('\x08', 'b'), ('\t', 't'), ('\n', 'n'), ('\x0b', 'v'),
   ('\x0c', 'f'), ('\r', 'r'), ('\x1b', 'e'), ('"', '"'), ('\\', '\\'), ('\u0085', 'N'),
   ('\u00a0', '_'), ('\u2028', 'L'), ('\u2029', 'P')]

/-- Characters that stand for themselves in double quotes. -/
def isLiteral (c : Char) : Bool :=
  let n := c.toNat
  !(c == '"' || c == '\\' || n == 0x2028 || n == 0x2029 || n == 0xfeff) &&
    ((0x20 ≤ n && n ≤ 0x7e) || (0xa0 ≤ n && n ≤ 0xd7ff) || (0xe000 ≤ n && n ≤ 0xfffd))

def escapeText (c : Char) : List Char :=
  match escapeNames.lookup c with
  | some name => ['\\', name]
  | none =>
    let n := c.toNat
    let (letter, digits) := if n < 0x100 then ('x', hex 2 n)
      else if n < 0x10000 then ('u', hex 4 n) else ('U', hex 8 n)
    '\\' :: letter :: digits.map Char.toUpper

/-- Breaks the line with a backslash. A space that comes next would be lost without its own. -/
def joinLine (indent : Nat) (next : Option Char) (p : Page) : Page :=
  let p := { (p.put ['\\']).indentTo indent with spaced := false, bare := false }
  if next = some ' ' then p.put ['\\'] else p

/-- Lines in double quotes may be broken before a space, and around an escape; but not directly
after the first character nor before the last one. -/
def doubleFrom (split : Bool) (indent : Nat) (first afterEscape : Bool) : List Char → Page → Page
  | [], p => p
  | c :: rest, p =>
    let inside := split && !first && !rest.isEmpty
    if isLiteral c then
      let p := if inside && (c == ' ' || afterEscape) && width < p.column
        then joinLine indent (some c) p else p
      doubleFrom split indent false false rest (p.put [c])
    else
      let p := p.put (escapeText c)
      let p := if inside && width + 1 < p.column then joinLine indent rest.head? p else p
      doubleFrom split indent false true rest p

def writeDouble (s : List Char) (split : Bool) (indent : Nat) (p : Page) : Page :=
  let p := p.indicator ['"'] true false false
  (doubleFrom split indent true true s p).indicator ['"'] false false false

/-- Writes a text; where it goes on over lines they begin at `indent`. -/
def writeText (text : String) (isKey : Bool) (indent : Nat) (p : Page) : Page :=
  let s := text.toList
  match styleOf text isKey with
  | .plain => writePlain s (!isKey) indent p
  | .single => writeSingle s (!isKey) indent p
  | .double => writeDouble s (!isKey) indent p

/-- The same numbers as in messages, with the names that they are read by. -/
def numberLayout : Decimal.Layout :=
  { Tree.numberLayout with infinityText := ".inf", nanText := ".nan" }

/-- A number with an exponent is read as one only with a point in it. -/
def numberText (x : Float) : String :=
  let text := numberLayout.text x
  if !contains text '.' && contains text 'e' then replace text "e" ".0e" else text

def writeScalar (isKey : Bool) (indent : Nat) : Tree → Page → Page
  | .null, p => writePlain "null".toList (!isKey) indent p
  | .flag b, p => writePlain (if b then "true" else "false").toList (!isKey) indent p
  | .int n, p => writePlain (ofInt n).toList (!isKey) indent p
  | .real x, p => writePlain (numberText x).toList (!isKey) indent p
  | .nan _, p => writePlain numberLayout.nanText.toList (!isKey) indent p
  | .date d, p => writePlain d.text.toList (!isKey) indent p
  | .moment m, p => writePlain m.text.toList (!isKey) indent p
  | other, p => writeText other.plain isKey indent p

/-! ### Documents -/

/-- Indentation of what stands in a block at `indent`; the outermost block has none. -/
def deeper : Option Nat → Nat
  | none => 0
  | some n => n + 2

def scalarIndent (indent : Option Nat) : Nat := indent.getD 0 + 2

mutual

/-- Writes a tree in a block at `indent`; `underKey` tells that it is the value of a key. -/
def write (indent : Option Nat) (underKey : Bool) : Tree → Page → Page
  | .list items, p =>
    if items.isEmpty then (p.indicator ['['] true true false).indicator [']'] false false false
    else writeItems (if underKey && !p.bare then indent.getD 0 else deeper indent) items p
  | .tuple items, p =>
    if items.isEmpty then (p.indicator ['['] true true false).indicator [']'] false false false
    else writeItems (if underKey && !p.bare then indent.getD 0 else deeper indent) items p
  | .mapping entries, p =>
    if entries.isEmpty then
      (p.indicator ['{'] true true false).indicator ['}'] false false false
    else writeEntries (deeper indent) entries p
  | other, p => writeScalar false (scalarIndent indent) other p

def writeItems (indent : Nat) : List Tree → Page → Page
  | [], p => p
  | item :: rest, p =>
    let p := (p.indentTo indent).indicator ['-'] true false true
    writeItems indent rest (write (some indent) false item p)

/-- Keys are short words and stand on the line of their value. -/
def writeEntries (indent : Nat) : List (Tree × Tree) → Page → Page
  | [], p => p
  | (key, value) :: rest, p =>
    let p := writeScalar true (indent + 2) key (p.indentTo indent)
    writeEntries indent rest (write (some indent) true value (p.indicator [':'] false false false))

end

/-- A whole document ends with a line break. -/
def documentText (t : Tree) : String := ((write none false t .empty).indentTo 0).text

end SessionPlan.Yaml
