import SessionPlan.Yaml.Graph
import SessionPlan.Yaml.Lexer

/-! The nodes of a document, made out of its tokens. -/
namespace SessionPlan.Yaml

/-- What is left to be read, what has been declared, and the nodes so far. -/
structure Composition where
  tokens : List Placed
  ending : Option Error
  handles : List (String × String)
  anchors : List (String × Nat)
  graph : Graph

namespace Composition

def peek (s : Composition) : Except Error Placed :=
  match s.tokens, s.ending with
  | token :: _, _ => .ok token
  | [], some e => .error e
  | [], none => .ok ⟨.streamEnd, 0⟩

def next (s : Composition) : Composition := { s with tokens := s.tokens.drop 1 }

/-- Adds a node and remembers it under its anchor. Also gives its number. -/
def place (s : Composition) (anchor : Option String) (node : Node) : Nat × Composition :=
  let number := s.graph.size
  (number, { s with
    graph := s.graph.add node
    anchors := (anchor.toList.map fun name => (name, number)) ++ s.anchors })

/-- Closes a collection, which has been placed without its parts. -/
def fill (s : Composition) (number : Nat) (content : Content) : Composition :=
  { s with graph := s.graph.fill number content }

def fail (line : Nat) (flaw : Flaw) : Except Error α := .error (.flaw flaw (some line))

/-- Anchor and tag in front of a node, in either order, with their lines. -/
structure Properties where
  anchor : Option String := none
  tag : Option (Option String × String) := none
  line : Option Nat := none
  tagLine : Nat := 0

def readAnchor (s : Composition) (p : Properties) : Except Error (Properties × Composition) := do
  let t ← s.peek
  match t.token with
  | .anchor name => return ({ p with anchor := name, line := p.line.or t.line }, s.next)
  | _ => return (p, s)

def readTag (s : Composition) (p : Properties) : Except Error (Properties × Composition) := do
  let t ← s.peek
  match t.token with
  | .tag handle suffix =>
    return ({ p with tag := some (handle, suffix), line := p.line.or t.line, tagLine := t.line },
      s.next)
  | _ => return (p, s)

def properties (s : Composition) : Except Error (Properties × Composition) := do
  let (p, s) ← s.readAnchor {}
  let (p, s) ← s.readTag p
  if p.anchor.isNone then s.readAnchor p else return (p, s)

/-- The full tag: the handle gives way to what was declared for it. -/
def fullTag (s : Composition) (p : Properties) : Except Error (Option String) :=
  match p.tag with
  | none => .ok none
  | some (none, suffix) => .ok (some suffix)
  | some (some handle, suffix) =>
    match s.handles.lookup handle with
    | some start => .ok (some (start ++ suffix))
    | none => fail p.tagLine (.handleUndefined handle)

/-- An anchor may be set once in a document. -/
def checkAnchor (s : Composition) (anchor : Option String) (line : Nat) : Except Error Unit :=
  match anchor with
  | none => .ok ()
  | some name =>
    if s.anchors.any (·.1 == name) then fail line .anchorTwice else .ok ()

/-- A tag that says nothing of its own. -/
def isOpen (tag : Option String) : Bool := tag.isNone || tag == some "!"

def scalarNode (tag : Option String) (text : String) (plain : Bool) (line : Nat) : Node :=
  let implied := (plain && tag.isNone) || tag == some "!"
  match tag, implied with
  | _, true => ⟨plainTag text, .scalar text, line⟩
  | some tag, false => ⟨tag, .scalar text, line⟩
  | none, false => ⟨standard "str", .scalar text, line⟩

def collectionTag (tag : Option String) (name : String) : String :=
  if isOpen tag then standard name else tag.getD ""

/-- A sequence without its items. -/
def openSequence (tag : Option String) (line : Nat) : Node :=
  ⟨collectionTag tag "seq", .sequence [], line⟩

/-- A mapping without its entries. -/
def openMapping (tag : Option String) (line : Nat) : Node :=
  ⟨collectionTag tag "map", .mapping [], line⟩

/-- A node that is not written. -/
def emptyNode (line : Nat) : Node := ⟨standard "null", .scalar "", line⟩

/-- What a block or flow context allows as a node. -/
structure Place where
  block : Bool
  /-- A sequence may stand at the indentation of the mapping that holds it. -/
  indentless : Bool := false

def isOneOf (token : Token) (others : List Token) : Bool := others.contains token

mutual

/-- A node with its properties. Each call of these functions takes a token or hands on to one
that does, so fuel for three times the tokens is enough. -/
def node (place : Place) : (fuel : Nat) → Composition → Except Error (Nat × Composition)
  | 0, _ => fail 0 (.contentExpected "")
  | fuel + 1, s => do
    let first ← s.peek
    if let .alias name := first.token then
      match s.anchors.lookup name with
      | none => fail first.line (.aliasUndefined name)
      | some number => return (number, s.next)
    let (p, s) ← s.properties
    let tag ← s.fullTag p
    let t ← s.peek
    let line := p.line.getD t.line
    match t.token with
    | .blockEntry =>
      if place.indentless then
        s.checkAnchor p.anchor line
        let (number, s) := s.place p.anchor (openSequence tag line)
        let (items, s) ← indentlessItems fuel s
        return (number, s.fill number (.sequence items))
      else emptyOrFail p tag line t s
    | .scalar text plain =>
      s.checkAnchor p.anchor line
      return s.next.place p.anchor (scalarNode tag text plain line)
    | .flowSequenceStart =>
      s.checkAnchor p.anchor line
      let (number, s) := s.next.place p.anchor (openSequence tag line)
      let (items, s) ← flowItems true fuel s
      return (number, s.fill number (.sequence items))
    | .flowMappingStart =>
      s.checkAnchor p.anchor line
      let (number, s) := s.next.place p.anchor (openMapping tag line)
      let (entries, s) ← flowEntries true fuel s
      return (number, s.fill number (.mapping entries))
    | .blockSequenceStart =>
      if place.block then
        s.checkAnchor p.anchor line
        let (number, s) := s.next.place p.anchor (openSequence tag line)
        let (items, s) ← blockItems fuel s
        return (number, s.fill number (.sequence items))
      else emptyOrFail p tag line t s
    | .blockMappingStart =>
      if place.block then
        s.checkAnchor p.anchor line
        let (number, s) := s.next.place p.anchor (openMapping tag line)
        let (entries, s) ← blockEntries fuel s
        return (number, s.fill number (.mapping entries))
      else emptyOrFail p tag line t s
    | _ => emptyOrFail p tag line t s

/-- Properties without a content stand for an empty scalar; without them a node is missing. -/
def emptyOrFail (p : Properties) (tag : Option String) (line : Nat) (t : Placed)
    (s : Composition) : Except Error (Nat × Composition) := do
  if p.anchor.isNone && tag.isNone then fail t.line (.contentExpected t.token.name)
  s.checkAnchor p.anchor line
  return s.place p.anchor (if isOpen tag then emptyNode line else ⟨tag.getD "", .scalar "", line⟩)

/-- A node, or nothing where one of the tokens `absent` follows. -/
def nodeUnless (place : Place) (absent : List Token) (line : Nat) :
    (fuel : Nat) → Composition → Except Error (Nat × Composition)
  | 0, _ => fail 0 (.contentExpected "")
  | fuel + 1, s => do
    if isOneOf (← s.peek).token absent then return s.place none (emptyNode line)
    node place fuel s

/-- Entries of a block sequence up to its end. -/
def blockItems : (fuel : Nat) → Composition → Except Error (List Nat × Composition)
  | 0, _ => fail 0 (.contentExpected "")
  | fuel + 1, s => do
    let t ← s.peek
    match t.token with
    | .blockEntry =>
      let (item, s) ← nodeUnless ⟨true, false⟩ [.blockEntry, .blockEnd] t.line fuel s.next
      let (items, s) ← blockItems fuel s
      return (item :: items, s)
    | .blockEnd => return ([], s.next)
    | token => fail t.line (.blockEndExpected token.name)

def indentlessItems : (fuel : Nat) → Composition → Except Error (List Nat × Composition)
  | 0, _ => fail 0 (.contentExpected "")
  | fuel + 1, s => do
    let t ← s.peek
    match t.token with
    | .blockEntry =>
      let (item, s) ←
        nodeUnless ⟨true, false⟩ [.blockEntry, .key, .value, .blockEnd] t.line fuel s.next
      let (items, s) ← indentlessItems fuel s
      return (item :: items, s)
    | _ => return ([], s)

/-- Entries of a block mapping up to its end. A value that is not written is null. -/
def blockEntries : (fuel : Nat) → Composition → Except Error (List (Nat × Nat) × Composition)
  | 0, _ => fail 0 (.contentExpected "")
  | fuel + 1, s => do
    let t ← s.peek
    match t.token with
    | .key =>
      let (key, s) ← nodeUnless ⟨true, true⟩ [.key, .value, .blockEnd] t.line fuel s.next
      let v ← s.peek
      let (value, s) ← match v.token with
        | .value => nodeUnless ⟨true, true⟩ [.key, .value, .blockEnd] v.line fuel s.next
        | _ => pure (s.place none (emptyNode v.line))
      let (entries, s) ← blockEntries fuel s
      return ((key, value) :: entries, s)
    | .blockEnd => return ([], s.next)
    | token => fail t.line (.blockEndExpected token.name)

/-- Items of a flow sequence up to its bracket. A key with its value is a mapping of one. -/
def flowItems (first : Bool) : (fuel : Nat) → Composition → Except Error (List Nat × Composition)
  | 0, _ => fail 0 (.contentExpected "")
  | fuel + 1, s => do
    let t ← s.peek
    if t.token == .flowSequenceEnd then return ([], s.next)
    if !first && t.token != .flowEntry then fail t.line (.sequenceGoesOn t.token.name)
    let s := if first then s else s.next
    let t ← s.peek
    match t.token with
    | .key =>
      let (key, s) ←
        nodeUnless ⟨false, false⟩ [.value, .flowEntry, .flowSequenceEnd] t.line fuel s.next
      let v ← s.peek
      let (value, s) ← match v.token with
        | .value => nodeUnless ⟨false, false⟩ [.flowEntry, .flowSequenceEnd] v.line fuel s.next
        | _ => pure (s.place none (emptyNode v.line))
      let (number, s) := s.place none ⟨standard "map", .mapping [(key, value)], t.line⟩
      let (items, s) ← flowItems false fuel s
      return (number :: items, s)
    | .flowSequenceEnd => return ([], s.next)
    | _ =>
      let (item, s) ← node ⟨false, false⟩ fuel s
      let (items, s) ← flowItems false fuel s
      return (item :: items, s)

/-- Entries of a flow mapping up to its brace. A node without a colon is a key without value. -/
def flowEntries (first : Bool) :
    (fuel : Nat) → Composition → Except Error (List (Nat × Nat) × Composition)
  | 0, _ => fail 0 (.contentExpected "")
  | fuel + 1, s => do
    let t ← s.peek
    if t.token == .flowMappingEnd then return ([], s.next)
    if !first && t.token != .flowEntry then fail t.line (.mappingGoesOn t.token.name)
    let s := if first then s else s.next
    let t ← s.peek
    match t.token with
    | .key =>
      let (key, s) ←
        nodeUnless ⟨false, false⟩ [.value, .flowEntry, .flowMappingEnd] t.line fuel s.next
      let v ← s.peek
      let (value, s) ← match v.token with
        | .value => nodeUnless ⟨false, false⟩ [.flowEntry, .flowMappingEnd] v.line fuel s.next
        | _ => pure (s.place none (emptyNode v.line))
      let (entries, s) ← flowEntries false fuel s
      return ((key, value) :: entries, s)
    | .flowMappingEnd => return ([], s.next)
    | _ =>
      let (key, s) ← node ⟨false, false⟩ fuel s
      let (value, s) := s.place none (emptyNode (← s.peek).line)
      let (entries, s) ← flowEntries false fuel s
      return ((key, value) :: entries, s)

end

def defaultHandles : List (String × String) := [("!", "!"), ("!!", "tag:yaml.org,2002:")]

/-- The directives before a document: a version of the first generation at most once, and each tag
handle at most once. -/
def directives (versioned : Bool) (handles : List (String × String)) :
    (fuel : Nat) → Composition → Except Error Composition
  | 0, s => .ok s
  | fuel + 1, s => do
    let t ← s.peek
    match t.token with
    | .directive (.version major _) =>
      if versioned then fail t.line .versionTwice
      if major != 1 then fail t.line .versionUnknown
      directives true handles fuel s.next
    | .directive (.tagHandle handle start) =>
      if handles.any (·.1 == handle) then fail t.line (.handleTwice handle)
      directives versioned (handles ++ [(handle, start)]) fuel s.next
    | .directive .other => directives versioned handles fuel s.next
    | _ => return { s with handles := handles ++ defaultHandles }

def skipDocumentEnds (s : Composition) : Composition :=
  { s with tokens := s.tokens.dropWhile fun t => t.token == .documentEnd }

/-- Begins a document with its directives and marker. `none` at the end of the text. -/
def documentStart? (s : Composition) : Except Error (Option (Nat × Composition)) := do
  let s := s.skipDocumentEnds
  let t ← s.peek
  if t.token == .streamEnd then return none
  let s ← directives false [] (s.tokens.length + 1) s
  let mark ← s.peek
  if mark.token != .documentStart then fail mark.line (.documentStartExpected mark.token.name)
  return some (t.line, s.next)

/-- The node of a document whose start has been read. -/
def documentNode (explicit : Bool) (s : Composition) : Except Error (Nat × Composition) := do
  let t ← s.peek
  let absent := match t.token with
    | .directive _ | .documentStart | .documentEnd | .streamEnd => explicit
    | _ => false
  if absent then return s.place none (emptyNode t.line)
  node ⟨true, false⟩ (3 * s.tokens.length + 3) s

/-- Steps over the marker that may end a document. -/
def documentEnd (s : Composition) : Except Error Composition := do
  if (← s.peek).token == .documentEnd then return s.next else return s

/-- The one document of a text, if it has one: its root and all nodes. -/
def document? (s : Composition) : Except Error (Option (Nat × Graph)) := do
  let first ← s.peek
  let begun ← match first.token with
    | .directive _ | .documentStart | .streamEnd => do
      let started ← s.documentStart?
      pure (started.map fun (_, s) => (true, s))
    | _ => pure (some (false, { s with handles := defaultHandles }))
  match begun with
  | none => return none
  | some (explicit, s) =>
    let (root, s) ← documentNode explicit s
    match ← (← documentEnd s).documentStart? with
    | none => return some (root, s.graph)
    | some (line, _) => fail line .documentTwice

end Composition

/-- The nodes of a YAML text and the number of the root. -/
def compose (text : List Char) : Except Error (Option (Nat × Graph)) := do
  if let some (c, position) := firstUnaccepted? 0 text then
    throw (.flaw (.unprintable c position) none)
  let (tokens, ending) := tokens text
  Composition.document? ⟨tokens, ending, [], [], {}⟩

end SessionPlan.Yaml
