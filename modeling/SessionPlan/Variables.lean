import SessionPlan.Problem

/-! Variables in document text: `$NAME`, `${NAME}`, `${NAME:-fallback}` and `$$`.

A text is cut into segments without looking at any value; expansion then replaces the segments
one by one, so nothing that was put in is read again. -/
namespace SessionPlan

/-- Named values: the positional arguments first, then the environment. -/
structure Variables where
  values : List (String × String)
  deriving DecidableEq, Repr

namespace Variables

def numbered (position : Nat) : List String → List (String × String)
  | [] => []
  | arg :: args => (Text.ofNat position, arg) :: numbered (position + 1) args

/-- Arguments are named 1, 2, … and hide variables of those names. -/
def ofEnvironment (args : List String) (environ : List (String × String)) : Variables :=
  ⟨numbered 1 args ++ environ⟩

def get? (v : Variables) (name : String) : Option String := v.values.lookup name

end Variables

inductive Segment where
  | literal (c : Char)
  | escape
  | reference (name : String) (fallback : Option String)
  deriving DecidableEq, Repr

namespace Segment

def isDigit (c : Char) : Bool := '0' ≤ c && c ≤ '9'

def startsName (c : Char) : Bool :=
  ('A' ≤ c && c ≤ 'Z') || ('a' ≤ c && c ≤ 'z') || c == '_'

/-- The name at the start of `s`: an identifier, or digits only. Empty if there is none. -/
def nameOf : List Char → List Char
  | [] => []
  | c :: rest =>
    if startsName c then c :: rest.takeWhile fun d => startsName d || isDigit d
    else (c :: rest).takeWhile isDigit

/-- What stands in braces after the name: nothing, or a fallback that a closing brace ends. Given
with the count of characters up to and with that brace. -/
def fallbackOf? : List Char → Option (Option String × Nat)
  | '}' :: _ => some (none, 1)
  | ':' :: '-' :: rest =>
    let text := rest.takeWhile (· != '}')
    if text.length < rest.length then some (some (String.ofList text), text.length + 3) else none
  | _ => none

/-- The reference or escape that follows a dollar sign, with the count of its characters. -/
def afterDollar? : List Char → Option (Segment × Nat)
  | '$' :: _ => some (.escape, 1)
  | '{' :: rest =>
    let name := nameOf rest
    if name.isEmpty then none
    else (fallbackOf? (rest.drop name.length)).map fun (fallback, count) =>
      (.reference (String.ofList name) fallback, name.length + count + 1)
  | rest =>
    let name := nameOf rest
    if name.isEmpty then none
    else some (.reference (String.ofList name) none, name.length)

/-- Segments of a text; `skip` counts characters that belong to the segment before. -/
def scan : (skip : Nat) → List Char → List Segment
  | _, [] => []
  | skip + 1, _ :: rest => scan skip rest
  | 0, c :: rest =>
    if c = '$' then
      match afterDollar? rest with
      | some (segment, count) => segment :: scan count rest
      | none => .literal c :: scan 0 rest
    else .literal c :: scan 0 rest

def ofText (s : String) : List Segment := scan 0 s.toList

/-- An empty value counts as none: the fallback is used, or nothing. -/
def value (v : Variables) : Segment → String
  | .literal c => c.toString
  | .escape => "$"
  | .reference name fallback =>
    let found := (v.get? name).getD ""
    if found.isEmpty then fallback.getD "" else found

end Segment

def expand (v : Variables) (s : String) : String :=
  String.join ((Segment.ofText s).map (Segment.value v))

example : Segment.scan 0 "a$$1$b-$\x7bc:-$d\x7d".toList =
    [.literal 'a', .escape, .literal '1', .reference "b" none, .literal '-',
     .reference "c" (some "$d")] := by decide

namespace Tree

mutual

/-- Expands every text of a tree, keys included. Two keys that become equal are an error, since
one of their values would be lost. Tuples become lists. A collection in itself has no end. -/
def expand (v : Variables) : Tree → Except Failure Tree
  | .text s => .ok (.text (SessionPlan.expand v s))
  | .list items => do return .list (← expandItems v items)
  | .tuple items => do return .list (← expandItems v items)
  | .mapping entries => do return .mapping (← expandEntries v [] entries)
  | .cycle => .error (.fault .endless)
  | other => .ok other

def expandItems (v : Variables) : List Tree → Except Failure (List Tree)
  | [] => .ok []
  | x :: xs => do
    let y ← expand v x
    return y :: (← expandItems v xs)

/-- Here `seen` holds the keys so far, each with its spelling before expansion. -/
def expandEntries (v : Variables) (seen : List (Tree × Tree)) :
    List (Tree × Tree) → Except Failure (List (Tree × Tree))
  | [] => .ok []
  | (key, value) :: rest => do
    let newKey ← expand v key
    if !newKey.isKey then throw (.fault .kindMismatch)
    match lookupKey newKey seen with
    | some (_, first) => reject (.keysCollide first key newKey) ""
    | none =>
      let newValue ← expand v value
      return (newKey, newValue) :: (← expandEntries v ((newKey, key) :: seen) rest)

end

def escapeText (s : String) : String :=
  String.ofList (s.toList.flatMap fun c => if c = '$' then ['$', '$'] else [c])

mutual

/-- Doubles every dollar sign, so that expansion gives the tree back. -/
def escape : Tree → Tree
  | .text s => .text (escapeText s)
  | .list items => .list (escapeItems items)
  | .mapping entries => .mapping (escapeEntries entries)
  | other => other

def escapeItems : List Tree → List Tree
  | [] => []
  | x :: xs => escape x :: escapeItems xs

def escapeEntries : List (Tree × Tree) → List (Tree × Tree)
  | [] => []
  | (key, value) :: rest => (escape key, escape value) :: escapeEntries rest

end

end Tree
end SessionPlan
