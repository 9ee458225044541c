import SessionPlan.Yaml.Scalar

/-! The tokens of YAML text. Some of them stand for no character: indentation opens and closes
blocks, and a key that is only recognised by the colon after it gets its token afterwards. -/
namespace SessionPlan.Yaml

inductive Directive where
  | version (major minor : Nat)
  | tagHandle (handle start : String)
  | other
  deriving DecidableEq, Repr

inductive Token where
  | streamEnd
  | directive (value : Directive)
  | documentStart
  | documentEnd
  | blockSequenceStart
  | blockMappingStart
  | blockEnd
  | flowSequenceStart
  | flowMappingStart
  | flowSequenceEnd
  | flowMappingEnd
  | key
  | value
  | blockEntry
  | flowEntry
  | alias (name : String)
  | anchor (name : String)
  | tag (handle : Option String) (suffix : String)
  | scalar (text : String) (plain : Bool)
  deriving DecidableEq, Repr

/-- How messages name a token. -/
def Token.name : Token → String
  | .streamEnd => "<stream end>"
  | .directive _ => "<directive>"
  | .documentStart => "<document start>"
  | .documentEnd => "<document end>"
  | .blockSequenceStart => "<block sequence start>"
  | .blockMappingStart => "<block mapping start>"
  | .blockEnd => "<block end>"
  | .flowSequenceStart => "["
  | .flowMappingStart => "\x7b"
  | .flowSequenceEnd => "]"
  | .flowMappingEnd => "\x7d"
  | .key => "?"
  | .value => ":"
  | .blockEntry => "-"
  | .flowEntry => ","
  | .alias _ => "<alias>"
  | .anchor _ => "<anchor>"
  | .tag _ _ => "<tag>"
  | .scalar _ _ => "<scalar>"

structure Placed where
  token : Token
  line : Nat

/-! ### Names, tags and directives -/

/-- The name of an anchor or alias, after its indicator. -/
def anchorName (c : Cursor) : Except Error (String × Cursor) := do
  let (name, c) := c.next.takeWhile isNameChar
  if name.isEmpty then c.fail (.nameExpected c.peek)
  if !(endsWord c.peek || "?:,]\x7d%@`".toList.contains c.peek) then c.fail (.nameExpected c.peek)
  return (String.ofList name, c)

/-- A tag handle: `!`, `!!` or `!name!`. -/
def tagHandle (c : Cursor) : Except Error (String × Cursor) := do
  if c.peek != '!' then c.fail (.bangExpected c.peek)
  if c.peekAt 1 == ' ' then return ("!", c.next)
  let (name, after) := c.next.takeWhile isNameChar
  if after.peek != '!' then after.fail (.bangExpected after.peek)
  return (String.ofList ('!' :: name ++ ['!']), after.next)

def isUriChar (c : Char) : Bool := isNameChar c || ";/?:@&=+$,.!~*'()[]".toList.contains c

/-- The bytes of a run of percent escapes. -/
def uriBytes : (fuel : Nat) → Cursor → Except Error (List UInt8 × Cursor)
  | 0, c => .ok ([], c)
  | fuel + 1, c =>
    if c.peek != '%' then .ok ([], c)
    else match hexNumber 0 2 c.next.rest with
      | .error found => c.next.fail (.uriDigitExpected found)
      | .ok n => do
        let (bytes, c) ← uriBytes fuel (c.forward 3)
        return (UInt8.ofNat n :: bytes, c)

def tagUriFrom : (fuel : Nat) → Cursor → Except Error (List Char × Cursor)
  | 0, c => .ok ([], c)
  | fuel + 1, c =>
    if isUriChar c.peek then do
      let (more, after) ← tagUriFrom fuel c.next
      return (c.peek :: more, after)
    else if c.peek == '%' then do
      let (bytes, after) ← uriBytes (c.rest.length + 1) c
      match Text.decodeUtf8 bytes with
      | .error e => c.fail (.uriUndecodable e)
      | .ok text =>
        let (more, after) ← tagUriFrom fuel after
        return (text.toList ++ more, after)
    else .ok ([], c)

def tagUri (c : Cursor) : Except Error (String × Cursor) := do
  let (text, after) ← tagUriFrom (c.rest.length + 1) c
  if after.index == c.index then c.fail (.uriExpected c.peek)
  return (String.ofList text, after)

/-- Whether the tag at `c` has a handle of its own: a second `!` before the next space. -/
def hasHandle (c : Cursor) : Bool :=
  ((c.rest.drop 1).takeWhile (!endsLineOrSpace ·)).contains '!'

def scanTag (c : Cursor) : Except Error (Token × Cursor) := do
  let second := c.peekAt 1
  let (token, c) ←
    if second == '<' then do
      let (uri, c) ← tagUri (c.forward 2)
      if c.peek != '>' then c.fail (.angleExpected c.peek)
      pure (Token.tag none uri, c.next)
    else if endsWord second then pure (Token.tag none "!", c.next)
    else do
      let (handle, c) ← if hasHandle c then tagHandle c else pure ("!", c.next)
      let (uri, c) ← tagUri c
      pure (Token.tag (some handle) uri, c)
  if !endsLineOrSpace c.peek then c.fail (.spaceExpected c.peek)
  return (token, c)

def directiveNumber (c : Cursor) : Except Error (Nat × Cursor) := do
  if !isDigitChar c.peek then c.fail (.digitExpected c.peek)
  let (digits, c) := c.takeWhile isDigitChar
  if Text.digitLimit < digits.length then throw (.fault (.unreadable digits.length))
  return (digits.foldl (fun n d => 10 * n + (d.toNat - 48)) 0, c)

def versionDirective (c : Cursor) : Except Error (Directive × Cursor) := do
  let (major, c) ← directiveNumber c.skipSpaces
  if c.peek != '.' then c.fail (.versionPointExpected c.peek)
  let (minor, c) ← directiveNumber c.next
  if !endsLineOrSpace c.peek then c.fail (.versionEndExpected c.peek)
  return (.version major minor, c)

def tagDirective (c : Cursor) : Except Error (Directive × Cursor) := do
  let (handle, c) ← tagHandle c.skipSpaces
  if c.peek != ' ' then c.fail (.spaceExpected c.peek)
  let (start, c) ← tagUri c.skipSpaces
  if !endsLineOrSpace c.peek then c.fail (.spaceExpected c.peek)
  return (.tagHandle handle start, c)

/-- A directive with its line. Those of unknown names say nothing. -/
def scanDirective (c : Cursor) : Except Error (Token × Cursor) := do
  let (name, c) := c.next.takeWhile isNameChar
  if name.isEmpty || !endsLineOrSpace c.peek then c.fail (.nameExpected c.peek)
  let (directive, c) ←
    if name == "YAML".toList then versionDirective c
    else if name == "TAG".toList then tagDirective c
    else pure (Directive.other, c.skipToLineEnd)
  return (.directive directive, ← restOfLine c)

end SessionPlan.Yaml
