import SessionPlan.Problem

/-! Words of a shell command line: how a line is cut into words, and how a word is quoted so that
it comes back whole. -/
namespace SessionPlan.Shell
open SessionPlan.Text

def separates (c : Char) : Bool := c == ' ' || c == '\t' || c == '\r' || c == '\n'

/-- Where the reader of a line stands. A word under way is kept last character first. -/
inductive State where
  | between
  | inWord (word : List Char)
  | inSingle (word : List Char)
  | inDouble (word : List Char)
  | escaped (word : List Char)
  | escapedInDouble (word : List Char)
  deriving DecidableEq, Repr

/-- One character, and the word that it ends. Inside double quotes a backslash escapes only the
double quote and itself; before any other character it stays. -/
def step (c : Char) : State → State × Option (List Char)
  | .between =>
    if separates c then (.between, none)
    else if c = '\\' then (.escaped [], none)
    else if c = '\'' then (.inSingle [], none)
    else if c = '"' then (.inDouble [], none)
    else (.inWord [c], none)
  | .inWord word =>
    if separates c then (.between, some word.reverse)
    else if c = '\\' then (.escaped word, none)
    else if c = '\'' then (.inSingle word, none)
    else if c = '"' then (.inDouble word, none)
    else (.inWord (c :: word), none)
  | .inSingle word => if c = '\'' then (.inWord word, none) else (.inSingle (c :: word), none)
  | .inDouble word =>
    if c = '"' then (.inWord word, none)
    else if c = '\\' then (.escapedInDouble word, none)
    else (.inDouble (c :: word), none)
  | .escaped word => (.inWord (c :: word), none)
  | .escapedInDouble word =>
    if c = '"' ∨ c = '\\' then (.inDouble (c :: word), none)
    else (.inDouble (c :: '\\' :: word), none)

def words (state : State) : List Char → Except CommandLineFlaw (List (List Char))
  | [] =>
    match state with
    | .between => .ok []
    | .inWord word => .ok [word.reverse]
    | .inSingle _ | .inDouble _ => .error .openQuote
    | .escaped _ | .escapedInDouble _ => .error .openEscape
  | c :: rest =>
    match step c state with
    | (next, none) => words next rest
    | (next, some word) => do return word :: (← words next rest)

/-- Cuts a line into words by the rules of a shell, without any expansion. -/
def split (line : String) : Except CommandLineFlaw (List String) :=
  (words .between line.toList).map (List.map String.ofList)

/-- Characters that mean nothing to a shell. -/
def isSafe (c : Char) : Bool :=
  ('A' ≤ c && c ≤ 'Z') || ('a' ≤ c && c ≤ 'z') || ('0' ≤ c && c ≤ '9') ||
    "@%+=:,./-_".toList.contains c

/-- In single quotes all is literal; a single quote itself goes between double quotes. -/
def quoteList (s : List Char) : List Char :=
  if s.isEmpty then ['\'', '\'']
  else if s.all isSafe then s
  else '\'' :: (s.flatMap fun c => if c = '\'' then "'\"'\"'".toList else [c]) ++ ['\'']

def quote (s : String) : String := String.ofList (quoteList s.toList)

/-- A line of quoted words, which `split` cuts into the same words. -/
def joinWords (args : List String) : String := join " " (args.map quote)

end SessionPlan.Shell
