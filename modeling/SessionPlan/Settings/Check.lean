import SessionPlan.Document.Format
import SessionPlan.Log
import SessionPlan.Settings.Table

/-! Which settings are accepted. Each check has its own words; the first that fails is reported. -/
namespace SessionPlan.Settings
open SessionPlan.Text

/-- What can be wrong with settings. -/
inductive Flaw where
  | sectionKind (name : String) (found : Tree)
  | formatUnknown (found : Tree)
  | commandBlank
  | shellsKind
  | levelUnknown (found : Tree)

namespace Flaw

def words : Flaw → String
  | .sectionKind name found => "[" ++ name ++ "] must be a table, got " ++ found.kindName
  | .formatUnknown found =>
    "document.format must be one of " ++ join ", " (Document.Format.all.map Document.Format.name) ++
      ", got " ++ found.quoted
  | .commandBlank => "tmux.command cannot be empty"
  | .shellsKind => "freeze.shell_commands must be a list of strings"
  | .levelUnknown found =>
    "logging.level must be one of " ++ join ", " (Log.Level.all.map Log.Level.name) ++
      ", got " ++ found.quoted

/-- The integers that the words hold. -/
def integers : Flaw → List Int
  | .formatUnknown found | .levelUnknown found => found.integers
  | _ => []

/-- Details beside the path of the settings. -/
def context : Flaw → List (String × Tree)
  | .sectionKind name _ => [("section", .text name)]
  | _ => []

def issue (path : String) (flaw : Flaw) : Issue :=
  ⟨.invalid, flaw.words, ("config_path", .text path) :: flaw.context⟩

end Flaw

def isTable : Tree → Bool
  | .mapping _ => true
  | _ => false

def isFormat (t : Tree) : Bool := (t.text?.bind Document.Format.ofName?).isSome

/-- No command, or one that is not blank. -/
def isCommand : Tree → Bool
  | .null => true
  | .text s => !isBlankText s
  | _ => false

def isTextList : Tree → Bool
  | .list items => items.all fun item => item.text?.isSome
  | _ => false

def isLevel : Tree → Bool
  | .text s => (Log.Level.ofName? (upper s)).isSome
  | _ => false

/-- The first section that is no table. -/
def sectionFlaw? (entries : List (Tree × Tree)) : Option Flaw :=
  sectionNames.findSome? fun name =>
    let found := (Tree.get? entries name).getD .null
    if isTable found then none else some (.sectionKind name found)

/-- The first flaw of settings, if they have one. Settings without an entry that the checks look
at are a failure. -/
def flaw? (settings : Tree) : Except Failure (Option Flaw) := do
  let .mapping entries := settings | throw (.fault .partMissing)
  if let some flaw := sectionFlaw? entries then return some flaw
  let format ← setting settings "document" "format"
  if !isFormat format then return some (.formatUnknown format)
  if !isCommand (← command settings) then return some .commandBlank
  if !isTextList (← setting settings "freeze" "shell_commands") then return some .shellsKind
  let level ← setting settings "logging" "level"
  if !isLevel level then return some (.levelUnknown level)
  return none

/-- Settings found at `path`, checked. The words for a flaw are written out at once. -/
def check (path : String) (settings : Tree) : Except Failure (Except Issue Tree) := do
  match ← flaw? settings with
  | some flaw =>
    ensureWritable flaw.integers
    return .error (flaw.issue path)
  | none => return .ok settings

end SessionPlan.Settings
