import SessionPlan.Position
import SessionPlan.Problem

/-! Settings as nested tables: the defaults, the merging of tables, and what the environment lays
over them. -/
namespace SessionPlan.Settings

def tableOf (name : String) (entries : List (Tree × Tree)) : Tree × Tree :=
  Tree.field name (.mapping entries)

/-- Commands of a shell that waits for input; a pane that runs one of them is idle. -/
def shellCommands : List String :=
  ["bash", "zsh", "sh", "fish", "dash", "ksh", "tcsh", "csh", "nu"]

/-- Settings that hold where the user says nothing. -/
def defaults : Tree := .mapping [
  tableOf "tmux" [Tree.field "command" .null],
  tableOf "document" [Tree.field "format" (.text "yaml")],
  tableOf "freeze" [Tree.field "shell_commands" (Tree.texts shellCommands)],
  tableOf "logging" [Tree.field "level" (.text "INFO")]]

/-- The tables that settings consist of. -/
def sectionNames : List String := ["tmux", "document", "freeze", "logging"]

mutual

/-- Lays entries over a table. Where both have a table it is merged; else the entry wins. -/
def overlay (base : List (Tree × Tree)) : List (Tree × Tree) → List (Tree × Tree)
  | [] => base
  | (key, value) :: rest =>
    overlay (Tree.insert key (overlaid ((Tree.lookupKey key base).map Prod.snd) value) base) rest

/-- What stands for a value in a merged table. -/
def overlaid (old : Option Tree) : Tree → Tree
  | .mapping entries => match old with
    | some (.mapping base) => .mapping (overlay base entries)
    | _ => .mapping entries
  | value => value

end

/-- Lays one entry over a list, at the position that its key is. A table is merged into the one
that is there only if the list also holds the key as an item. -/
def overlayItem (items : List Tree) (key value : Tree) : Except Failure (List Tree) :=
  match key.integer? with
  | none => .error (.fault .kindMismatch)
  | some index =>
    match position? items.length index with
    | none => .error (.fault .indexMissing)
    | some n =>
      let old := if items.any (key.same ·) then items[n]? else none
      .ok (items.set n (overlaid old value))

/-- Merges `override` into `base`. A set takes nothing, and what is no collection cannot be merged
at all. -/
def merge (base override : Tree) : Except Failure Tree :=
  match base, override with
  | .mapping base, .mapping entries => .ok (.mapping (overlay base entries))
  | .list items, .mapping entries => do
    return .list (← entries.foldlM (fun items entry => overlayItem items entry.1 entry.2) items)
  | .set items, .mapping [] => .ok (.set items)
  | .set _, .mapping _ => .error (.fault .kindMismatch)
  | _, _ => .error (.fault .partMissing)

def commandVariable : String := "TMUX_LAYOUT_COMMAND"

/-- The environment may name the multiplexer. An empty name does not count. -/
def withEnvironment (environ : List (String × String)) (settings : Tree) : Except Failure Tree :=
  match (environ.lookup commandVariable).filter (!·.isEmpty) with
  | none => .ok settings
  | some command =>
    merge settings (.mapping [tableOf "tmux" [Tree.field "command" (.text command)]])

/-- An entry that has to be there. -/
def entry (table : Tree) (key : String) : Except Failure Tree :=
  match table with
  | .mapping entries =>
    match Tree.get? entries key with
    | some value => .ok value
    | none => .error (.fault .keyMissing)
  | _ => .error (.fault .kindMismatch)

/-- The setting `key` of the section `name`. -/
def setting (settings : Tree) (name key : String) : Except Failure Tree := do
  entry (← entry settings name) key

/-- The multiplexer of the settings; a section without one is as good as a null. -/
def command (settings : Tree) : Except Failure Tree := do
  match ← entry settings "tmux" with
  | .mapping entries => return (Tree.get? entries "command").getD .null
  | _ => throw (.fault .partMissing)

end SessionPlan.Settings
