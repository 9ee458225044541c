import SessionPlan.Text.Utf8
import SessionPlan.Tree.Shown

/-! What can be wrong with a document, a command line or a listing, and how it is reported.

A `Problem` is a cause with the place where it was found; its message and its context follow from
the cause. A `Fault` is a failure that no problem describes: a lookup or a conversion that its
caller did not guard. An `Issue` is a report entry, of a problem or of a file. -/
namespace SessionPlan
open SessionPlan.Text

/-- The three levels of a document that have named fields. -/
inductive Entity where
  | project | window | pane
  deriving DecidableEq, Repr

def Entity.name : Entity → String
  | .project => "project"
  | .window => "window"
  | .pane => "pane"

inductive CommandLineFlaw where
  | openQuote | openEscape
  deriving DecidableEq, Repr

def CommandLineFlaw.words : CommandLineFlaw → String
  | .openQuote => "No closing quotation"
  | .openEscape => "No escaped character"

inductive Selector where
  | index (value : Int) | name (value : String)
  deriving DecidableEq, Repr

inductive Cause where
  /-- Two keys of one mapping expand to the same key. -/
  | keysCollide (first second expanded : Tree)
  | commandKind (found : Tree)
  | commandItemKind (found : Tree)
  | textKind (found : Tree)
  | directoryKind (found : Tree)
  | countKind (found : Tree)
  | flagKind (found : Tree)
  | selectorKind (found : Tree)
  | entryKind (entity : Entity) (found : Tree)
  | entryNameKind (entity : Entity) (found : Tree)
  | rootKind (found : Tree)
  | nameForbidden (entity : Entity) (name : String)
  | negativeCount (value : Int)
  | splitUnknown (found : Tree)
  | sizeUnknown (found : Tree)
  | fieldUnknown (entity : Entity) (key : Tree)
  | nestedFieldUnknown (entity : Entity) (key name : Tree)
  | entryEmpty (entity : Entity)
  | entryAmbiguous (entity : Entity) (name found : Tree)
  | lateNullName
  | panesMissing
  | windowsMissing
  | splitInLayout (field layout : String) (window pane : Int)
  | attachTwice (attach detached : Bool)
  | startupWindowUnknown (selector : Selector)
  | startupPaneUnknown (pane window : Int)
  | projectEmpty
  | sessionUnnamed
  | commandLineUnreadable (flaw : CommandLineFlaw)
  | commandLineEmpty
  | splitSourceMissing (source window pane : Int)
  | snapshotEmpty
  | snapshotWindowEmpty
  | listingFieldsMissing (wanted found : Nat)
  | listingIndex (what found : String)
  | sessionNotListed (name : String)
  | yamlUnreadable (words : String)
  | jsonUnreadable (words : String)
  | formatUnknown (found : Tree)

/-- Characters that separate the parts of a target, so that no name may hold one. -/
def targetSeparators : List Char := ['.', ':']

/-- Fields of which a project must declare one. -/
def contentFieldNames : List String :=
  ["session_name", "working_dir", "windows", "pane_commands", "on_start", "on_first_start",
   "on_restart", "on_exit", "on_stop", "post_create", "on_pane_create", "post_pane_create"]

namespace Cause

/-- Whether the tree or text has the wrong shape, and not merely a value that is not allowed. -/
def isShape : Cause → Bool
  | .keysCollide .. | .commandKind _ | .commandItemKind _ | .textKind _ | .directoryKind _
  | .countKind _ | .flagKind _ | .selectorKind _ | .entryKind .. | .entryNameKind .. | .rootKind _
  | .listingFieldsMissing .. | .listingIndex .. | .yamlUnreadable _ | .jsonUnreadable _
  | .formatUnknown _ => true
  | _ => false

def selectorWords : Selector → String
  | .index n => "index " ++ ofInt n
  | .name s => "name " ++ quoted s

def words : Cause → String
  | .keysCollide first second expanded =>
    "keys " ++ first.quoted ++ " and " ++ second.quoted ++ " both expand to " ++ expanded.quoted
  | .commandKind found =>
    "expected a command or a list of commands, got " ++ found.kindName
  | .commandItemKind found => "expected a command string, got " ++ found.kindName
  | .textKind found => "expected a string, got " ++ found.kindName
  | .directoryKind found => "expected a directory path, got " ++ found.kindName
  | .countKind found => "expected a non-negative integer, got " ++ found.quoted
  | .flagKind found => "expected a boolean, got " ++ found.quoted
  | .selectorKind found => "expected a window index or name, got " ++ found.quoted
  | .entryKind entity found =>
    "invalid " ++ entity.name ++ " definition of type " ++ found.kindName
  | .entryNameKind entity found => entity.name ++ " name must be a string, got " ++ found.quoted
  | .rootKind found => "document root must be a mapping, got " ++ found.kindName
  | .nameForbidden entity name =>
    let what := if entity = .project then "session" else entity.name
    what ++ " name " ++ quoted name ++ " cannot contain the following characters: " ++
      String.ofList targetSeparators
  | .negativeCount value => "must be non-negative, got " ++ ofInt value
  | .splitUnknown found =>
    "expected split value " ++ found.quoted ++ " to match v|h|vertical|horizontal"
  | .sizeUnknown found =>
    "expected split_size " ++ found.quoted ++ " to be a cell count or a percentage like \"30%\""
  | .fieldUnknown entity key => "unknown " ++ entity.name ++ " field " ++ key.quoted
  | .nestedFieldUnknown entity key name =>
    "unknown " ++ entity.name ++ " field " ++ key.quoted ++ " in definition of " ++ name.quoted
  | .entryEmpty entity => entity.name ++ " definition is empty"
  | .entryAmbiguous entity name found =>
    "ambiguous " ++ entity.name ++ " entry " ++ name.quoted ++ ": " ++ found.quoted ++
      " is neither a field nor a command"
  | .lateNullName => "null name can only be set as first element of the map"
  | .panesMissing => "window must have at least one pane"
  | .windowsMissing => "project must have at least one window"
  | .splitInLayout field layout _ _ =>
    "pane cannot declare " ++ field ++ " because the window has layout " ++ quoted layout
  | .attachTwice _ _ => "cannot set both 'attach' and 'detached' fields"
  | .startupWindowUnknown selector => "there is no window with " ++ selectorWords selector
  | .startupPaneUnknown pane window =>
    "there is no pane with index " ++ ofInt pane ++ " in window " ++ ofInt window
  | .projectEmpty => "project is empty: set at least one of " ++ join ", " contentFieldNames
  | .sessionUnnamed => "session_name is required"
  | .commandLineUnreadable flaw => "cannot parse tmux command line: " ++ flaw.words
  | .commandLineEmpty => "tmux command cannot be empty"
  | .splitSourceMissing source _ _ =>
    "split_from: there is no pane with index " ++ ofInt source ++
      " created before this pane (pane indexes always start at 0)"
  | .snapshotEmpty => "snapshot has no windows"
  | .snapshotWindowEmpty => "snapshot window has no panes"
  | .listingFieldsMissing wanted found =>
    "expected " ++ ofNat wanted ++ " tab separated fields, got " ++ ofNat found
  | .listingIndex what found => "expected an integer " ++ what ++ ", got " ++ quoted found
  | .sessionNotListed name => "session " ++ quoted name ++ " not found in listing"
  | .yamlUnreadable words => "invalid YAML: " ++ words
  | .jsonUnreadable words => "invalid JSON: " ++ words
  | .formatUnknown found => "unsupported document format " ++ found.quoted

/-- The integers that the words hold. -/
def integers : Cause → List Int
  | .keysCollide first second expanded =>
    first.integers ++ second.integers ++ expanded.integers
  | .countKind found | .flagKind found | .selectorKind found | .entryNameKind _ found
  | .splitUnknown found | .sizeUnknown found | .formatUnknown found => found.integers
  | .fieldUnknown _ key => key.integers
  | .nestedFieldUnknown _ key name => key.integers ++ name.integers
  | .entryAmbiguous _ name found => name.integers ++ found.integers
  | .negativeCount value => [value]
  | .startupWindowUnknown (.index n) => [n]
  | .startupPaneUnknown pane window => [pane, window]
  | .splitSourceMissing source _ _ => [source]
  | _ => []

/-- The details that go with a report. -/
def context : Cause → List (String × Tree)
  | .keysCollide _ _ expanded => [("key", .text expanded.plain)]
  | .nameForbidden _ name => [("name", .text name)]
  | .fieldUnknown _ key | .nestedFieldUnknown _ key _ => [("field", .text key.plain)]
  | .splitInLayout field _ window pane =>
    [("window_index", .int window), ("pane_index", .int pane), ("field", .text field)]
  | .attachTwice attach detached => [("attach", .flag attach), ("detached", .flag detached)]
  | .startupPaneUnknown _ window => [("window_index", .int window)]
  | .splitSourceMissing source window pane =>
    [("window_index", .int window), ("pane_index", .int pane), ("split_from", .int source)]
  | .sessionNotListed name => [("session_name", .text name)]
  | _ => []

end Cause

/-- A cause and the entry it was found at, such as `windows[1].panes[0].split`. -/
structure Problem where
  cause : Cause
  path : String

/-- The path stands in front of the words, unless it is empty. -/
def Problem.message (p : Problem) : String :=
  if p.path.isEmpty then p.cause.words else p.path ++ ": " ++ p.cause.words

/-- A failure that no problem describes. -/
inductive Fault where
  | notInteger (text : String) (base : Nat)
  | notNumber (text : String)
  | notListed (value : Int)
  | outOfRange (words : String)
  | levelUnknown (name : String)
  | zeroByte
  | undecodable (error : Utf8Error)
  | isDirectory (path : String)
  | notDirectory
  | nameTooLong
  | homeUnknown
  | keyMissing
  | indexMissing
  | partMissing
  | kindMismatch
  | tooLarge
  | endless

/-- Quoted text in these messages is cut after 200 characters. -/
def Fault.message? : Fault → Option String
  | .notInteger text base =>
    some ("invalid literal for int() with base " ++ ofNat base ++ ": " ++
      takeFirst 200 (quoted text))
  | .notNumber text => some ("could not convert string to float: " ++ quoted text)
  | .notListed value => some (ofInt value ++ " is not in list")
  | .outOfRange words => some words
  | .levelUnknown name => some ("Level '" ++ name ++ "' does not exist")
  | .zeroByte => some "embedded null byte"
  | .undecodable error => some error.message
  | .isDirectory path => some ("[Errno 21] Is a directory: " ++ quoted path)
  | .homeUnknown => some "Could not determine home directory."
  | _ => none

namespace Fault

/-- An integer has too many digits to be written. -/
def unwritable : Fault := .outOfRange (limitWords "")

/-- A numeral has too many digits to be read. -/
def unreadable (digits : Nat) : Fault := .outOfRange (overlongWords digits)

/-- Half of a character stands alone. The texts here are made of whole characters, so that nothing
can be said of what holds one. -/
def halfCharacter : Fault := .outOfRange halfCharacterWords

/-- What comes of reading a text as an integer that is none. -/
def ofNumeral (text : String) : NumeralFlaw → Fault
  | .malformed => .notInteger text 10
  | .overlong digits => .unreadable digits

end Fault

inductive Failure where
  | problem (problem : Problem)
  | fault (fault : Fault)

/-- Stops where one of the integers has too many digits to be written. -/
def ensureWritable (ns : List Int) : Except Failure Unit :=
  if ns.all isWritable then .ok () else .error (.fault .unwritable)

/-- The text that a value stands for, written out. -/
def Tree.written (t : Tree) : Except Failure String := do
  ensureWritable t.integers
  return t.plain

/-- Rejects the entry at `path`. The words are written out at once, with the integers in them. -/
def reject (cause : Cause) (path : String) : Except Failure α := do
  ensureWritable cause.integers
  .error (.problem ⟨cause, path⟩)

inductive IssueKind where
  | fileNotFound | shape | invalid | denied
  deriving DecidableEq, Repr

def IssueKind.name : IssueKind → String
  | .fileNotFound => "file_not_found"
  | .shape => "parse_error"
  | .invalid => "validation_error"
  | .denied => "permission_error"

structure Issue where
  kind : IssueKind
  message : String
  context : List (String × Tree)

/-- In a report the path of a problem is one of its details. -/
def Problem.issue (p : Problem) : Issue where
  kind := if p.cause.isShape then .shape else .invalid
  message := p.message
  context := p.cause.context ++ if p.path.isEmpty then [] else [("path", .text p.path)]

/-- Several names of one field with different values: `kept` wins over `ignored`. -/
structure Conflict where
  entity : Entity
  path : String
  field : String
  kept : String
  ignored : String
  deriving DecidableEq, Repr

def Conflict.issue (c : Conflict) : Issue where
  kind := .invalid
  message := "conflicting " ++ c.entity.name ++ " field aliases: keeping " ++ quoted c.kept ++
    ", ignoring " ++ quoted c.ignored
  context := [("path", .text c.path), ("field", .text c.field), ("kept", .text c.kept),
    ("ignored", .text c.ignored)]

end SessionPlan
