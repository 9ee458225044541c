import SessionPlan.Yaml.Token

/-! Cutting YAML text into tokens.

A scalar, a collection or an alias may turn out to be a key only when a colon follows it on the
same line. Until that is settled the place of its token is kept as a candidate; the tokens before
the earliest candidate are settled. Where the text cannot be cut any further, the settled tokens
are still good, and the flaw counts only for a reader that needs more than them. -/
namespace SessionPlan.Yaml

/-- A token that may begin a key: its number, and where it begins. In a block it must be a key if
it stands at the block's own indentation. -/
structure Candidate where
  number : Nat
  required : Bool
  index : Nat
  line : Nat
  column : Nat

structure Lexer where
  cursor : Cursor
  tokens : List Placed
  done : Bool
  /-- Flow brackets that are open. -/
  flowLevel : Nat
  /-- Column of the current block, -1 outside of all, and those of the blocks around it. -/
  indent : Int
  outerIndents : List Int
  mayBeKey : Bool
  /-- At most one candidate for each flow level. -/
  candidates : List (Nat × Candidate)

namespace Lexer

def start (s : List Char) : Lexer := ⟨.start s, [], false, 0, -1, [], true, []⟩

def place (l : Lexer) (token : Token) : Placed := ⟨token, l.cursor.line⟩

def push (l : Lexer) (token : Token) : Lexer := { l with tokens := l.tokens ++ [l.place token] }

/-- A token of one or more characters that need no reading. -/
def indicator (l : Lexer) (token : Token) (length : Nat) : Lexer :=
  { l.push token with cursor := l.cursor.forward length }

def inFlow (l : Lexer) : Bool := l.flowLevel != 0

/-- The number of the first token that is not settled. -/
def settled (l : Lexer) : Nat :=
  l.candidates.foldl (fun n candidate => min n candidate.2.number) l.tokens.length

/-- A candidate lasts to the end of its line and for 1024 characters. -/
def isStale (l : Lexer) (candidate : Candidate) : Bool :=
  candidate.line != l.cursor.line || l.cursor.index - candidate.index > 1024

def dropStale (l : Lexer) : Except Error Lexer := do
  if l.candidates.any fun (_, candidate) => l.isStale candidate && candidate.required then
    l.cursor.fail .keyUnfinished
  return { l with candidates := l.candidates.filter fun (_, candidate) => !l.isStale candidate }

/-- Gives the candidate of this flow level up. -/
def dropCandidate (l : Lexer) : Except Error Lexer := do
  if ((l.candidates.lookup l.flowLevel).map (·.required)).getD false then
    l.cursor.fail .keyUnfinished
  return { l with candidates := l.candidates.filter (·.1 != l.flowLevel) }

/-- Makes the token that comes next a candidate, where a key may stand. -/
def addCandidate (l : Lexer) : Except Error Lexer := do
  if !l.mayBeKey then return l
  let required := !l.inFlow && l.indent == l.cursor.column
  let l ← l.dropCandidate
  let c := l.cursor
  let candidate := ⟨l.tokens.length, required, c.index, c.line, c.column⟩
  return { l with candidates := l.candidates ++ [(l.flowLevel, candidate)] }

/-- Closes the blocks that are indented further than `column`. -/
def unwind (column : Int) (indent : Int) (outer : List Int) (l : Lexer) : Lexer :=
  if l.inFlow then l
  else if indent ≤ column then { l with indent, outerIndents := outer }
  else match outer with
    | [] => { l.push .blockEnd with indent := -1, outerIndents := [] }
    | around :: rest => unwind column around rest (l.push .blockEnd)

def unwindTo (l : Lexer) (column : Int) : Lexer := unwind column l.indent l.outerIndents l

/-- Opens a block at `column`, unless one is open there. -/
def openBlock? (l : Lexer) (column : Nat) : Option Lexer :=
  if l.indent < column then
    some { l with indent := column, outerIndents := l.indent :: l.outerIndents }
  else none

/-- Spaces, comments and line ends before a token. After a line end in a block a key may come. -/
def skipToToken : (fuel : Nat) → Lexer → Lexer
  | 0, l => l
  | fuel + 1, l =>
    let c := l.cursor.skipSpaces
    let c := if c.peek == '#' then c.skipToLineEnd else c
    match c.lineBreak? with
    | none => { l with cursor := c }
    | some (_, c) => skipToToken fuel { l with cursor := c, mayBeKey := l.mayBeKey || !l.inFlow }

def skipByteOrderMark (l : Lexer) : Lexer :=
  if l.cursor.index == 0 && l.cursor.peek == '\ufeff' then { l with cursor := l.cursor.next } else l

/-! ### One token -/

def fetchStreamEnd (l : Lexer) : Except Error Lexer := do
  let l ← (l.unwindTo (-1)).dropCandidate
  return { l.push .streamEnd with mayBeKey := false, candidates := [], done := true }

def fetchDirective (l : Lexer) : Except Error Lexer := do
  let l ← (l.unwindTo (-1)).dropCandidate
  let (token, cursor) ← scanDirective l.cursor
  return { l.push token with cursor, mayBeKey := false }

def fetchDocumentMark (l : Lexer) (token : Token) : Except Error Lexer := do
  let l ← (l.unwindTo (-1)).dropCandidate
  return { l.indicator token 3 with mayBeKey := false }

def fetchFlowStart (l : Lexer) (token : Token) : Except Error Lexer := do
  let l ← l.addCandidate
  return { l.indicator token 1 with flowLevel := l.flowLevel + 1, mayBeKey := true }

def fetchFlowEnd (l : Lexer) (token : Token) : Except Error Lexer := do
  let l ← l.dropCandidate
  return { l.indicator token 1 with flowLevel := l.flowLevel - 1, mayBeKey := false }

def fetchFlowEntry (l : Lexer) : Except Error Lexer := do
  let l ← l.dropCandidate
  return { l.indicator .flowEntry 1 with mayBeKey := true }

/-- Opens a block of the given kind for an indicator, where one may stand. -/
def openFor (l : Lexer) (opening : Token) (flaw : Flaw) : Except Error Lexer := do
  if l.inFlow then return l
  if !l.mayBeKey then l.cursor.fail flaw
  match l.openBlock? l.cursor.column with
  | some opened => return opened.push opening
  | none => return l

def fetchBlockEntry (l : Lexer) : Except Error Lexer := do
  let l ← (← l.openFor .blockSequenceStart .entryNotAllowed).dropCandidate
  return { l.indicator .blockEntry 1 with mayBeKey := true }

def fetchKey (l : Lexer) : Except Error Lexer := do
  let l ← (← l.openFor .blockMappingStart .keyNotAllowed).dropCandidate
  return { l.indicator .key 1 with mayBeKey := !l.inFlow }

/-- A colon settles the candidate: its key begins there, and perhaps a block. -/
def fetchValue (l : Lexer) : Except Error Lexer := do
  match l.candidates.lookup l.flowLevel with
  | some candidate =>
    let l := { l with
      candidates := l.candidates.filter (·.1 != l.flowLevel)
      tokens := l.tokens.insertIdx candidate.number ⟨.key, candidate.line⟩ }
    let l := match if l.inFlow then none else l.openBlock? candidate.column with
      | some opened =>
        { opened with
          tokens := l.tokens.insertIdx candidate.number ⟨.blockMappingStart, candidate.line⟩ }
      | none => l
    return { l.indicator .value 1 with mayBeKey := false }
  | none =>
    let l ← (← l.openFor .blockMappingStart .valueNotAllowed).dropCandidate
    return { l.indicator .value 1 with mayBeKey := !l.inFlow }

def fetchAnchor (l : Lexer) (token : String → Token) : Except Error Lexer := do
  let l ← l.addCandidate
  let (name, cursor) ← anchorName l.cursor
  return { l.push (token name) with cursor, mayBeKey := false }

def fetchTag (l : Lexer) : Except Error Lexer := do
  let l ← l.addCandidate
  let (token, cursor) ← scanTag l.cursor
  return { l.push token with cursor, mayBeKey := false }

def fetchBlock (l : Lexer) (folded : Bool) : Except Error Lexer := do
  let l ← l.dropCandidate
  let (text, cursor) ← blockScalar folded l.indent l.cursor
  return { l.push (.scalar text false) with cursor, mayBeKey := true }

def fetchQuoted (l : Lexer) (double : Bool) : Except Error Lexer := do
  let l ← l.addCandidate
  let (text, cursor) ← quotedScalar double l.cursor
  return { l.push (.scalar text false) with cursor, mayBeKey := false }

def fetchPlain (l : Lexer) : Except Error Lexer := do
  let l ← l.addCandidate
  let (text, ended, cursor) := plainScalar l.inFlow (l.indent + 1) l.cursor
  return { l.push (.scalar text true) with cursor, mayBeKey := ended }

/-- Whether a plain scalar may begin here. -/
def startsPlain (l : Lexer) : Bool :=
  let ch := l.cursor.peek
  !(endsWord ch || "-?:,[]\x7b\x7d#&*!|>'\"%@`".toList.contains ch) ||
    (!endsWord (l.cursor.peekAt 1) && (ch == '-' || (!l.inFlow && (ch == '?' || ch == ':'))))

/-- Reads the token at the cursor. -/
def fetchHere (l : Lexer) : Except Error Lexer :=
  let c := l.cursor
  let ch := c.peek
  let isolated := l.inFlow || endsWord (c.peekAt 1)
  if c.rest.isEmpty then l.fetchStreamEnd
  else if ch == '%' && c.column == 0 then l.fetchDirective
  else if c.column == 0 && c.atMarker '-' then l.fetchDocumentMark .documentStart
  else if c.column == 0 && c.atMarker '.' then l.fetchDocumentMark .documentEnd
  else if ch == '[' then l.fetchFlowStart .flowSequenceStart
  else if ch == '{' then l.fetchFlowStart .flowMappingStart
  else if ch == ']' then l.fetchFlowEnd .flowSequenceEnd
  else if ch == '}' then l.fetchFlowEnd .flowMappingEnd
  else if ch == ',' then l.fetchFlowEntry
  else if ch == '-' && endsWord (c.peekAt 1) then l.fetchBlockEntry
  else if ch == '?' && isolated then l.fetchKey
  else if ch == ':' && isolated then l.fetchValue
  else if ch == '*' then l.fetchAnchor .alias
  else if ch == '&' then l.fetchAnchor .anchor
  else if ch == '!' then l.fetchTag
  else if ch == '|' && !l.inFlow then l.fetchBlock false
  else if ch == '>' && !l.inFlow then l.fetchBlock true
  else if ch == '\'' then l.fetchQuoted false
  else if ch == '"' then l.fetchQuoted true
  else if l.startsPlain then l.fetchPlain
  else c.fail (.startsNoToken ch)

def fetch (l : Lexer) : Except Error Lexer := do
  let l ← ((l.skipByteOrderMark).skipToToken (l.cursor.rest.length + 1)).dropStale
  let l ← (l.unwindTo l.cursor.column).fetchHere
  if l.done then return l else l.dropStale

/-- The tokens of a text, and the flaw that ends them if there is one. Every fetch but the last
takes a character, so fuel for the length of the text is enough. -/
def run : (fuel : Nat) → Lexer → List Placed × Option Error
  | 0, l => (l.tokens, none)
  | fuel + 1, l =>
    if l.done then (l.tokens, none)
    else match l.fetch with
      | .ok next => run fuel next
      | .error e => (l.tokens.take l.settled, some e)

end Lexer

def tokens (s : List Char) : List Placed × Option Error :=
  Lexer.run (s.length + 2) (Lexer.start s)

end SessionPlan.Yaml
