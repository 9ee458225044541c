import SessionPlan.Yaml.Cursor

/-! The text of scalars: plain, in single or double quotes, and in blocks. Each reader begins at
the scalar's first character and gives its text with the place after it. -/
namespace SessionPlan.Yaml

/-! ### Plain text -/

/-- Characters of a plain line before the next space, break or indicator. -/
def plainLength (inFlow : Bool) : List Char → Nat
  | [] => 0
  | c :: rest =>
    let next := rest.headD '\x00'
    let endsKey := endsWord next || (inFlow && ",[]\x7b\x7d".toList.contains next)
    if endsWord c || (c == ':' && endsKey) ||
        (inFlow && ",?[]\x7b\x7d".toList.contains c) then 0
    else 1 + plainLength inFlow rest

/-- Breaks after a first one, with the spaces between them. `none` where a document separator
begins a line. -/
def plainBreaks : (fuel : Nat) → Cursor → Option (List Char) × Cursor
  | 0, c => (some [], c)
  | fuel + 1, c =>
    let c := c.skipSpaces
    match c.lineBreak? with
    | none => (some [], c)
    | some (ch, c) =>
      if c.atSeparator then (none, c)
      else
        let (breaks, c) := plainBreaks fuel c
        (breaks.map (ch :: ·), c)

/-- A single break between lines is a space; of more breaks the first one goes. -/
def foldBreak (first : Char) (breaks : List Char) : List Char :=
  if first ≠ '\n' then first :: breaks else if breaks.isEmpty then [' '] else breaks

/-- White space inside or after a plain scalar: what it adds to the text if the scalar goes on,
and whether a line ended. -/
def plainSpaces (c : Cursor) : List Char × Bool × Cursor :=
  let (spaces, c) := c.takeWhile (· == ' ')
  match c.lineBreak? with
  | none => (spaces, false, c)
  | some (first, c) =>
    if c.atSeparator then ([], true, c)
    else
      match plainBreaks (c.rest.length + 1) c with
      | (none, c) => ([], true, c)
      | (some breaks, c) => (foldBreak first breaks, true, c)

/-- A plain scalar goes on over lines that are indented to `indent` at least. Also tells whether
it ended with a line. -/
def plainFrom (inFlow : Bool) (indent : Int) (pending : List Char) (ended : Bool) :
    (fuel : Nat) → Cursor → List Char × Bool × Cursor
  | 0, c => ([], ended, c)
  | fuel + 1, c =>
    let length := if c.peek == '#' then 0 else plainLength inFlow c.rest
    if length = 0 then ([], ended, c)
    else
      let word := c.rest.take length
      let (spaces, crossed, after) := plainSpaces (c.forward length)
      if spaces.isEmpty || after.peek == '#' || (!inFlow && (after.column : Int) < indent) then
        (pending ++ word, crossed, after)
      else
        let (more, ended, last) := plainFrom inFlow indent spaces crossed fuel after
        (pending ++ word ++ more, ended, last)

/-- Text of the plain scalar, whether it ended with a line, and the place after it. -/
def plainScalar (inFlow : Bool) (indent : Int) (c : Cursor) : String × Bool × Cursor :=
  let (text, ended, c) := plainFrom inFlow indent [] false (c.rest.length + 1) c
  (String.ofList text, ended, c)

/-! ### Quoted text -/

def escapes : List (Char × Char) :=
  [('0', '\x00'), ('a', '\x07'), ('b', '\x08'), ('t', '\t'), ('\t', '\t'), ('n', '\n'),
   ('v', '\x0b'), ('f', '\x0c'), ('r', '\r'), ('e', '\x1b'), (' ', ' '), ('"', '"'), ('\\', '\\'),
   ('/', '/'), ('N', '\u0085'), ('_', '\u00a0'), ('L', '\u2028'), ('P', '\u2029')]

/-- Letters of the escapes that are followed by digits, with their count. -/
def escapeLengths : List (Char × Nat) := [('x', 2), ('u', 4), ('U', 8)]

def hexValue? (c : Char) : Option Nat :=
  if '0' ≤ c && c ≤ '9' then some (c.toNat - 48)
  else if 'a' ≤ c && c ≤ 'f' then some (c.toNat - 87)
  else if 'A' ≤ c && c ≤ 'F' then some (c.toNat - 55)
  else none

/-- The number that `count` hexadecimal digits write, or the character that is none. -/
def hexNumber (value : Nat) : (count : Nat) → List Char → Except Char Nat
  | 0, _ => .ok value
  | _ + 1, [] => .error '\x00'
  | count + 1, c :: rest =>
    match hexValue? c with
    | some d => hexNumber (16 * value + d) count rest
    | none => .error c

/-- Line breaks and blanks after a break in quotes. No document separator may begin a line. -/
def quotedBreaks : (fuel : Nat) → Cursor → Except Error (List Char × Cursor)
  | 0, c => .ok ([], c)
  | fuel + 1, c => do
    if c.atSeparator then c.fail .separatorInQuotes
    let c := c.skipWhile fun ch => ch == ' ' || ch == '\t'
    match c.lineBreak? with
    | none => return ([], c)
    | some (ch, c) =>
      let (breaks, c) ← quotedBreaks fuel c
      return (ch :: breaks, c)

/-- What follows a backslash in double quotes. An escaped break joins two lines. -/
def escapeSequence (c : Cursor) : Except Error (List Char × Cursor) :=
  match escapes.lookup c.peek, escapeLengths.lookup c.peek with
  | some ch, _ => .ok ([ch], c.next)
  | none, some count => do
    match hexNumber 0 count c.next.rest with
    | .error found => c.next.fail (.escapeDigitExpected count found)
    | .ok code =>
      if 0x7fffffff < code then throw (.fault .tooLarge)
      if 0x10ffff < code then
        throw (.fault (.outOfRange "chr() arg not in range(0x110000)"))
      if !code.isValidChar then throw (.fault .halfCharacter)
      return ([Char.ofNat code], c.next.forward count)
  | none, none =>
    match c.lineBreak? with
    | some (_, after) => quotedBreaks (after.rest.length + 1) after
    | none => c.fail (.escapeUnknown c.peek)

/-- White space in quotes: kept inside a line, folded where it holds a break. -/
def quotedSpaces (c : Cursor) : Except Error (List Char × Cursor) := do
  let (spaces, c) := c.takeWhile fun ch => ch == ' ' || ch == '\t'
  if c.rest.isEmpty then c.fail .endInQuotes
  match c.lineBreak? with
  | none => return (spaces, c)
  | some (first, c) =>
    let (breaks, c) ← quotedBreaks (c.rest.length + 1) c
    return (foldBreak first breaks, c)

/-- Text up to the closing quote, which is left to be read. -/
def quotedFrom (double : Bool) : (fuel : Nat) → Cursor → Except Error (List Char × Cursor)
  | 0, c => c.fail .endInQuotes
  | fuel + 1, c => do
    let quote := if double then '"' else '\''
    let ch := c.peek
    let (piece, c) ←
      if !double && ch == '\'' && c.peekAt 1 == '\'' then pure (['\''], c.forward 2)
      else if ch == quote then return ([], c)
      else if double && ch == '\\' then escapeSequence c.next
      else if endsWord ch then quotedSpaces c
      else pure ([ch], c.next)
    let (more, c) ← quotedFrom double fuel c
    return (piece ++ more, c)

def quotedScalar (double : Bool) (c : Cursor) : Except Error (String × Cursor) := do
  let (text, c) ← quotedFrom double (c.rest.length + 1) c.next
  return (String.ofList text, c.next)

/-! ### Blocks -/

/-- What becomes of the breaks at the end of a block. -/
inductive Chomping where
  | strip | clip | keep
  deriving DecidableEq, Repr

def chomping? (c : Char) : Option Chomping :=
  if c = '+' then some .keep else if c = '-' then some .strip else none

/-- An indentation from 1 to 9, if a digit stands here. -/
def increment? (c : Cursor) : Except Error (Option Nat × Cursor) :=
  if isDigitChar c.peek then
    if c.peek = '0' then c.fail .zeroIndent else .ok (some (c.peek.toNat - 48), c.next)
  else .ok (none, c)

/-- The two indicators of a block, in either order. -/
def blockHeader (c : Cursor) : Except Error (Chomping × Option Nat × Cursor) := do
  let (chomping, increment, c) ← match chomping? c.peek with
    | some chomping => do
      let (increment, c) ← increment? c.next
      pure (chomping, increment, c)
    | none => do
      let (increment, after) ← increment? c
      match increment, chomping? after.peek with
      | some _, some chomping => pure (chomping, increment, after.next)
      | _, _ => pure (Chomping.clip, increment, after)
  if !endsLineOrSpace c.peek then c.fail (.headerUnknown c.peek)
  return (chomping, increment, c)

/-- Spaces, a comment and the end of the line. -/
def restOfLine (c : Cursor) : Except Error Cursor := do
  let c := c.skipSpaces
  let c := if c.peek == '#' then c.skipToLineEnd else c
  if !endsLine c.peek then c.fail (.lineEndExpected c.peek)
  return c.skipBreak

/-- Empty lines before a block whose indentation is not given, and the widest of them. -/
def blockIndentation (widest : Nat) : (fuel : Nat) → Cursor → List Char × Nat × Cursor
  | 0, c => ([], widest, c)
  | fuel + 1, c =>
    if c.peek == ' ' then blockIndentation (max widest c.next.column) fuel c.next
    else match c.lineBreak? with
      | none => ([], widest, c)
      | some (ch, c) =>
        let (breaks, widest, c) := blockIndentation widest fuel c
        (ch :: breaks, widest, c)

/-- Spaces up to the column `indent`. -/
def skipIndent (indent : Int) : (fuel : Nat) → Cursor → Cursor
  | 0, c => c
  | fuel + 1, c =>
    if (c.column : Int) < indent && c.peek == ' ' then skipIndent indent fuel c.next else c

/-- Empty lines of a block, and the indentation of the line after them. -/
def blockBreaks (indent : Int) : (fuel : Nat) → Cursor → List Char × Cursor
  | 0, c => ([], c)
  | fuel + 1, c =>
    let c := skipIndent indent c.rest.length c
    match c.lineBreak? with
    | none => ([], c)
    | some (ch, c) =>
      let (breaks, c) := blockBreaks indent fuel c
      (ch :: breaks, c)

/-- What has been read of a block: its text, the break after the last line (none at the end of the
text), and the empty lines after that. -/
structure BlockText where
  text : List Char
  lastBreak : List Char
  breaks : List Char
  cursor : Cursor

def isIndented (c : Char) : Bool := c == ' ' || c == '\t'

/-- Lines of a block from its column on. In a folded block a break between two lines that are not
indented further is a space, or goes where empty lines follow. -/
def blockLines (folded : Bool) (indent : Int) : (fuel : Nat) → BlockText → BlockText
  | 0, b => b
  | fuel + 1, b =>
    let c := b.cursor
    if (c.column : Int) ≠ indent || c.rest.isEmpty then b
    else
      let flush := !isIndented c.peek
      let (line, c) := c.takeWhile (!isBreak ·)
      let (lineBreak, c) := match c.lineBreak? with
        | some (ch, c) => ([ch], c)
        | none => ([], c)
      let (breaks, c) := blockBreaks indent (c.rest.length + 1) c
      let text := b.text ++ b.breaks ++ line
      if (c.column : Int) = indent && !c.rest.isEmpty then
        let joint :=
          if folded && lineBreak == ['\n'] && flush && !isIndented c.peek then
            if breaks.isEmpty then [' '] else []
          else lineBreak
        blockLines folded indent fuel ⟨text ++ joint, lineBreak, breaks, c⟩
      else ⟨text, lineBreak, breaks, c⟩

/-- A literal or folded block below an indentation of `parent`. -/
def blockScalar (folded : Bool) (parent : Int) (c : Cursor) : Except Error (String × Cursor) := do
  let (chomping, increment, c) ← blockHeader c.next
  let c ← restOfLine c
  let least := max 1 (parent + 1)
  let (indent, breaks, c) := match increment with
    | none =>
      let (breaks, widest, c) := blockIndentation 0 (c.rest.length + 1) c
      (max least widest, breaks, c)
    | some n =>
      let indent := least + n - 1
      let (breaks, c) := blockBreaks indent (c.rest.length + 1) c
      (indent, breaks, c)
  let b := blockLines folded indent (c.rest.length + 1) ⟨[], [], breaks, c⟩
  let tail := match chomping with
    | .strip => []
    | .clip => b.lastBreak
    | .keep => b.lastBreak ++ b.breaks
  return (String.ofList (b.text ++ tail), b.cursor)

end SessionPlan.Yaml
