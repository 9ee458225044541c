import SessionPlan.Document.Scalars
import SessionPlan.Variables

/-! The compact document tree of a project. Fields that have their defaults are left out, a single
command stands without its list, and a pane that only runs commands is written as them. -/
namespace SessionPlan.Document
open SessionPlan.Text

/-- A field that is written only where there is something to write. -/
def optionalField (key : String) (value : Option Tree) : List (Tree × Tree) :=
  value.toList.map (Tree.field key)

def textField (key : String) (value : Option String) : List (Tree × Tree) :=
  optionalField key (value.map .text)

def directoryField (home : String) (value : Option String) : List (Tree × Tree) :=
  textField "working_dir" (value.map (Path.contractHome home))

def commandsTree? : List String → Option Tree
  | [] => none
  | [command] => some (.text command)
  | commands => some (Tree.texts commands)

def commandsField (key : String) (commands : List String) : List (Tree × Tree) :=
  optionalField key (commandsTree? commands)

/-- A size of digits only is written as an integer. -/
def splitSizeTree (size : String) : Except Failure Tree :=
  if isDigits size then do return .int (← digitsInteger size) else .ok (.text size)

def paneFields (home : String) (p : Pane) : Except Failure (List (Tree × Tree)) := do
  let size ← p.splitSize.mapM splitSizeTree
  return textField "name" p.name ++ directoryField home p.workingDir ++
    textField "split" (p.split.map SplitDirection.name) ++
    optionalField "split_from" (p.splitFrom.map .int) ++ optionalField "split_size" size ++
    (if p.clear then [Tree.field "clear" (.flag true)] else []) ++
    commandsField "on_create" p.onCreate ++ commandsField "post_create" p.postCreate

/-- A pane without fields of its own is null, a command, or a mapping of its commands. -/
def paneTree (home : String) (p : Pane) : Except Failure Tree := do
  let fields ← paneFields home p
  match fields, p.commands with
  | [], [] => return .null
  | [], [command] => return .text command
  | fields, commands => return .mapping (fields ++ commandsField "commands" commands)

def panesField (home : String) (panes : List Pane) : Except Failure (List (Tree × Tree)) := do
  match ← panes.mapM (paneTree home) with
  | [.null] => return []
  | trees => return [Tree.field "panes" (.list trees)]

def windowTree (home : String) (w : Window) : Except Failure Tree := do
  let fields := textField "name" w.name ++ directoryField home w.workingDir ++
    textField "layout" w.layout ++ commandsField "on_create" w.onCreate ++
    commandsField "post_create" w.postCreate ++ commandsField "on_pane_create" w.onPaneCreate ++
    commandsField "post_pane_create" w.postPaneCreate ++
    commandsField "pane_commands" w.paneCommands
  match fields ++ (← panesField home w.panes) with
  | [] => return .null
  | entries => return .mapping entries

def selectorTree : Selector → Tree
  | .index n => .int n
  | .name s => .text s

/-- A base index of 1 is the default. -/
def baseIndexField (key : String) (index : Int) : List (Tree × Tree) :=
  if index = 1 then [] else [Tree.field key (.int index)]

def projectFields (home : String) (p : Project) : List (Tree × Tree) :=
  textField "session_name" p.sessionName ++ textField "tmux_command" p.tmuxCommand ++
    textField "tmux_options" p.tmuxOptions ++ textField "tmux_socket" p.tmuxSocket ++
    directoryField home p.workingDir ++ baseIndexField "window_base_index" p.windowBaseIndex ++
    baseIndexField "pane_base_index" p.paneBaseIndex ++
    optionalField "startup_window" (p.startupWindow.map selectorTree) ++
    optionalField "startup_pane" (p.startupPane.map .int) ++
    commandsField "on_start" p.onStart ++ commandsField "on_first_start" p.onFirstStart ++
    commandsField "on_restart" p.onRestart ++ commandsField "on_exit" p.onExit ++
    commandsField "on_stop" p.onStop ++ commandsField "post_create" p.postCreate ++
    commandsField "on_pane_create" p.onPaneCreate ++
    commandsField "post_pane_create" p.postPaneCreate ++
    commandsField "pane_commands" p.paneCommands ++
    (if p.attach then [] else [Tree.field "attach" (.flag false)])

/-- The tree of a project. Its dollar signs are doubled, so that reading it again gives the same
project whatever the variables are. -/
def outline (home : String) (p : Project) : Except Failure Tree := do
  let windows ← p.windows.mapM (windowTree home)
  return (Tree.mapping
    (projectFields home p ++ [Tree.field "windows" (.list windows)])).escape

end SessionPlan.Document
