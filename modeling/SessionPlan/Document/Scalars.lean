import SessionPlan.Document.Fields
import SessionPlan.Path
import SessionPlan.Project
import SessionPlan.Text.Integer

/-! Values of single fields: each reader takes a tree and the place it was found at. An absent
field is read like a null one, save for directories. -/
namespace SessionPlan.Document
open SessionPlan.Text

/-- A command is one line of keystrokes: a carriage return is dropped, a line feed is a space. -/
def commandLine (s : String) : String :=
  String.ofList ((s.toList.filter (· != '\r')).map fun c => if c = '\n' then ' ' else c)

def itemPath (path : String) (position : Nat) : String := path ++ "[" ++ ofNat position ++ "]"

def fieldPath (path field : String) : String := path ++ "." ++ field

def commandItems (path : String) (position : Nat) : List Tree → Except Failure (List String)
  | [] => .ok []
  | item :: rest =>
    if isScalar item then do
      let text ← item.written
      return commandLine text :: (← commandItems path (position + 1) rest)
    else reject (.commandItemKind item) (itemPath path position)

/-- One command or a list of commands. -/
def commands (path : String) : Tree → Except Failure (List String)
  | .null => .ok []
  | .list items => commandItems path 0 items
  | value =>
    if isScalar value then do return [commandLine (← value.written)]
    else reject (.commandKind value) path

def optionalText (path : String) : Tree → Except Failure (Option String)
  | .null => .ok none
  | value =>
    if isScalar value then do return some (← value.written) else reject (.textKind value) path

/-- An empty text counts as none. -/
def nonempty (s : Option String) : Option String := s.filter (!·.isEmpty)

def holdsSeparator (name : String) : Bool := name.toList.any targetSeparators.contains

/-- The name of a session or a window, which must not break up a target. -/
def targetName (entity : Entity) (path : String) (value : Tree) :
    Except Failure (Option String) := do
  match nonempty (← optionalText path value) with
  | none => return none
  | some name =>
    if holdsSeparator name then reject (.nameForbidden entity name) path else return some name

/-- A directory. Null means the home directory. -/
def directory (home path : String) : Tree → Except Failure String
  | .null => .ok (Path.homeDirectory home)
  | value =>
    if isScalar value then do
      match Path.expandHome? home (← value.written) with
      | some directory => return directory
      | none => throw (.fault .zeroByte)
    else reject (.directoryKind value) path

/-- A directory, or none where the field is absent. -/
def optionalDirectory (home path : String) : Option Tree → Except Failure (Option String)
  | none => .ok none
  | some value => do return some (← directory home path value)

def count (path : String) : Tree → Except Failure (Option Int)
  | .null => .ok none
  | .int n => if n < 0 then reject (.negativeCount n) path else .ok (some n)
  | value => reject (.countKind value) path

def optionalFlag (path : String) : Tree → Except Failure (Option Bool)
  | .null => .ok none
  | .flag b => .ok (some b)
  | value => reject (.flagKind value) path

/-- A flag that an integer may stand for. -/
def clearFlag (path : String) : Tree → Except Failure Bool
  | .null => .ok false
  | .flag b => .ok b
  | .int n => .ok (n != 0)
  | value => reject (.flagKind value) path

def splitDirection (path : String) : Tree → Except Failure (Option SplitDirection)
  | .null => .ok none
  | .text s =>
    match SplitDirection.ofText? s with
    | some direction => .ok (some direction)
    | none => reject (.splitUnknown (.text s)) path
  | value => reject (.splitUnknown value) path

/-- The integer that a text of digits writes. Some digits are no numerals, and there may be too many
of them. -/
def digitsInteger (digits : String) : Except Failure Int :=
  (integer digits).mapError fun flaw => .fault (.ofNumeral digits flaw)

/-- The part of a size before its percent sign. -/
def sizeDigits (size : String) : String :=
  if size.toList.getLast? = some '%' then String.ofList size.toList.dropLast else size

/-- A positive count of cells or a percentage, as text. -/
def splitSize (path : String) : Tree → Except Failure (Option String)
  | .null => .ok none
  | .int n =>
    if 0 < n then do return some (← (Tree.int n).written) else reject (.sizeUnknown (.int n)) path
  | .text s => do
    let size := strip s
    if isDigits (sizeDigits size) then
      if 0 < (← digitsInteger (sizeDigits size)) then return some size
    reject (.sizeUnknown (.text s)) path
  | value => reject (.sizeUnknown value) path

/-- A window by index or name; a name of digits only is an index. -/
def selector (path : String) : Tree → Except Failure (Option Selector)
  | .null => .ok none
  | .int n => .ok (some (.index n))
  | .text s =>
    if isDigits s then do return some (.index (← digitsInteger s)) else .ok (some (.name s))
  | value => reject (.selectorKind value) path

end SessionPlan.Document
